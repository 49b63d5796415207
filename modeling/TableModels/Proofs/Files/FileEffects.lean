import TableModels.Files.FileScript
import Mathlib.Data.List.Basic

/-!
# What operations do to the files of a tree

An operation only ever adds directories, and it changes the content of a file only where a path
leads that it writes, removes or moves. The effects of operations, listed in their order, therefore
tell the content of every file afterwards: the last effect whose path leads to a file counts.

## Implementation notes

Directories are never removed, so a path that leads to a place goes on to lead there. This is why
the paths of all effects can be followed in the tree that is left in the end.
-/

namespace TableModels

/-- A file that comes to have a content, or that is removed. -/
structure FileEffect where
  path : Path
  content : Option ByteArray

/-- The content of a node, if it is a file. -/
def FileNode.content? : FileNode → Option ByteArray
  | directory => none
  | file content => some content

namespace FileTree

/-- The content of the file at a place. -/
def content? (tree : FileTree) (place : Place) : Option ByteArray :=
  (tree.node? place).bind FileNode.content?

/-- The content of the file at a place where `found` was its content, after the effects. -/
def contentAfter (tree : FileTree) (place : Place) (found : Option ByteArray)
    (effects : List FileEffect) : Option ByteArray :=
  effects.foldl (fun found effect =>
    if tree.locate? effect.path = some place then effect.content else found) found

variable {tree between after : FileTree} {place other : Place} {node : FileNode}

theorem content?_eq_some_iff {content : ByteArray} :
    tree.content? place = some content ↔ tree.node? place = some (.file content) := by
  rw [content?]
  rcases tree.node? place with _ | _ | _ <;> simp [FileNode.content?]

theorem isDirectory_eq_false_of_content? {content : ByteArray}
    (h : tree.content? place = some content) : tree.isDirectory place = false := by
  rw [isDirectory, content?_eq_some_iff.1 h]

/-! ### One node -/

theorem node?_erase_self (h : tree.isDirectory place = false) :
    (tree.erase place).node? place = none := by
  have hprefix : place.isPrefixOf tree.workingDirectory = false := by
    rw [Bool.eq_false_iff]
    intro hprefix
    simp [isDirectory, node?, hprefix] at h
  have hlookup : (tree.nodes.filter (·.1 != place)).lookup place = none := by
    rw [List.lookup_eq_none_iff]
    intro entry hentry
    have hne : entry.1 ≠ place := bne_iff_ne.1 (List.mem_filter.1 hentry).2
    exact bne_iff_ne.2 hne.symm
  rw [node?, erase, hprefix]
  exact hlookup

theorem isDirectory_erase_eq_false (h : tree.isDirectory place = false)
    (hother : tree.isDirectory other = false) : (tree.erase place).isDirectory other = false := by
  by_cases hsame : other = place
  · subst hsame
    rw [isDirectory, node?_erase_self h]
  · rw [isDirectory, node?_erase_of_ne tree hsame]
    exact hother

theorem content?_put (h : tree.isDirectory place = false) :
    (tree.put place node).content? other =
      if place = other then node.content? else tree.content? other := by
  split_ifs with hother
  · subst hother
    rw [content?, node?_put_self tree node h]
    rfl
  · rw [content?, node?_put_of_ne tree node (Ne.symm hother), ← content?]

theorem content?_erase (h : tree.isDirectory place = false) :
    (tree.erase place).content? other = if place = other then none else tree.content? other := by
  split_ifs with hother
  · subst hother
    rw [content?, node?_erase_self h]
    rfl
  · rw [content?, node?_erase_of_ne tree (Ne.symm hother), ← content?]

/-! ### Directories are kept -/

/-- Paths start at the same directory in both trees, and what is a directory stays one. -/
structure KeepsDirectories (tree after : FileTree) : Prop where
  workingDirectory : after.workingDirectory = tree.workingDirectory
  isDirectory : ∀ place, tree.isDirectory place = true → after.isDirectory place = true

namespace KeepsDirectories

theorem refl (tree : FileTree) : tree.KeepsDirectories tree :=
  ⟨rfl, fun _ h => h⟩

theorem trans (h : tree.KeepsDirectories between) (hafter : between.KeepsDirectories after) :
    tree.KeepsDirectories after :=
  ⟨hafter.workingDirectory.trans h.workingDirectory,
    fun place hplace => hafter.isDirectory place (h.isDirectory place hplace)⟩

/-- A change at a place where there is no directory leaves the directories. -/
theorem of_node? (hworking : after.workingDirectory = tree.workingDirectory)
    (h : tree.isDirectory place = false)
    (hnode : ∀ other, other ≠ place → after.node? other = tree.node? other) :
    tree.KeepsDirectories after := by
  refine ⟨hworking, fun other hother => ?_⟩
  have hne : other ≠ place := by
    rintro rfl
    exact absurd hother (Bool.eq_false_iff.1 h)
  rw [FileTree.isDirectory, hnode other hne]
  exact hother

theorem put (h : tree.isDirectory place = false) (node : FileNode) :
    tree.KeepsDirectories (tree.put place node) :=
  of_node? rfl h fun _ hne => node?_put_of_ne tree node hne

theorem erase (h : tree.isDirectory place = false) :
    tree.KeepsDirectories (tree.erase place) :=
  of_node? rfl h fun _ hne => node?_erase_of_ne tree hne

/-- Names that lead to a directory go on to lead there. -/
theorem follow? (h : tree.KeepsDirectories after) {names : List String} {found : Place}
    (hfound : tree.follow? place names = some found) :
    after.follow? place names = some found := by
  induction names generalizing place with
  | nil => exact hfound
  | cons name rest ih =>
      rw [FileTree.follow?] at hfound ⊢
      by_cases hdot : name = "."
      · rw [if_pos hdot] at hfound ⊢
        exact ih hfound
      rw [if_neg hdot] at hfound ⊢
      by_cases hup : name = ".."
      · rw [if_pos hup] at hfound ⊢
        exact ih hfound
      rw [if_neg hup] at hfound ⊢
      by_cases hdirectory : tree.isDirectory (place ++ [name]) = true
      · rw [if_pos hdirectory] at hfound
        rw [if_pos (h.isDirectory _ hdirectory)]
        exact ih hfound
      · rw [if_neg hdirectory] at hfound
        cases hfound

/-- A path that leads to a place goes on to lead there. -/
theorem locate? (h : tree.KeepsDirectories after) {path : Path}
    (hplace : tree.locate? path = some place) : after.locate? path = some place := by
  have hstart : after.start path = tree.start path := by
    rw [start, start, h.workingDirectory]
  rw [FileTree.locate?] at hplace ⊢
  split_ifs at hplace ⊢
  cases hlast : path.segments.getLast? with
  | none => simpa [hlast] using hplace
  | some last =>
      cases hfollow : tree.follow? (tree.start path) path.segments.dropLast with
      | none => simp [hlast, hfollow] at hplace
      | some directory =>
          simp only [hlast, hfollow] at hplace
          simpa only [hstart, h.follow? hfollow] using hplace

end KeepsDirectories

/-! ### The effects that lead from one tree to another -/

/-- A tree becomes another by the given effects, one after the other. -/
structure Undergoes (tree : FileTree) (effects : List FileEffect) (after : FileTree) : Prop where
  keepsDirectories : tree.KeepsDirectories after
  located : ∀ effect ∈ effects, ∃ place, after.locate? effect.path = some place
  content : ∀ place, after.content? place =
    after.contentAfter place (tree.content? place) effects

theorem contentAfter_cons (tree : FileTree) (place : Place) (found : Option ByteArray)
    (first : FileEffect) (rest : List FileEffect) :
    tree.contentAfter place found (first :: rest) =
      tree.contentAfter place
        (if tree.locate? first.path = some place then first.content else found) rest := rfl

theorem contentAfter_append (tree : FileTree) (place : Place) (found : Option ByteArray)
    (effects later : List FileEffect) :
    tree.contentAfter place found (effects ++ later) =
      tree.contentAfter place (tree.contentAfter place found effects) later :=
  List.foldl_append

/-- Effects come to the same in a tree in which their paths still lead to the same places. -/
theorem contentAfter_of_keepsDirectories (h : tree.KeepsDirectories after) (place : Place)
    (found : Option ByteArray) {effects : List FileEffect}
    (hlocated : ∀ effect ∈ effects, ∃ place, tree.locate? effect.path = some place) :
    after.contentAfter place found effects = tree.contentAfter place found effects := by
  apply List.foldl_ext
  intro found effect heffect
  obtain ⟨written, hwritten⟩ := hlocated effect heffect
  rw [hwritten, h.locate? hwritten]

theorem contentAfter_of_forall_ne {effects : List FileEffect}
    (h : ∀ effect ∈ effects, tree.locate? effect.path ≠ some place) (found : Option ByteArray) :
    tree.contentAfter place found effects = found := by
  induction effects with
  | nil => rfl
  | cons first rest ih =>
      obtain ⟨hfirst, hrest⟩ := List.forall_mem_cons.1 h
      rw [contentAfter_cons, if_neg hfirst]
      exact ih hrest

/-- Either no effect leads to a place, or the last that does tells the content there. -/
theorem contentAfter_cases (tree : FileTree) (place : Place) (found : Option ByteArray)
    (effects : List FileEffect) :
    (∀ effect ∈ effects, tree.locate? effect.path ≠ some place) ∧
        tree.contentAfter place found effects = found ∨
      ∃ earlier effect later, effects = earlier ++ effect :: later ∧
        tree.locate? effect.path = some place ∧
        (∀ effect ∈ later, tree.locate? effect.path ≠ some place) ∧
        tree.contentAfter place found effects = effect.content := by
  -- what was found is general, because the first effect may have put it there
  induction effects generalizing found with
  | nil => exact Or.inl ⟨by simp, rfl⟩
  | cons first rest ih =>
      rw [contentAfter_cons]
      rcases ih (if tree.locate? first.path = some place then first.content else found) with
        ⟨hrest, hcontent⟩ | ⟨earlier, effect, later, rfl, hplace, hlater, hcontent⟩
      · rw [hcontent]
        split_ifs with hfirst
        · exact Or.inr ⟨[], first, rest, rfl, hfirst, hrest, rfl⟩
        · exact Or.inl ⟨List.forall_mem_cons.2 ⟨hfirst, hrest⟩, rfl⟩
      · exact Or.inr ⟨first :: earlier, effect, later, rfl, hplace, hlater, hcontent⟩

namespace Undergoes

variable {effects later : List FileEffect} {path : Path} {content : ByteArray}

theorem refl (tree : FileTree) : tree.Undergoes [] tree :=
  ⟨.refl tree, by simp, fun _ => rfl⟩

theorem trans (h : tree.Undergoes effects between) (hafter : between.Undergoes later after) :
    tree.Undergoes (effects ++ later) after := by
  refine ⟨h.keepsDirectories.trans hafter.keepsDirectories, ?_, fun place => ?_⟩
  · intro effect heffect
    rcases List.mem_append.1 heffect with heffect | heffect
    · obtain ⟨place, hplace⟩ := h.located effect heffect
      exact ⟨place, hafter.keepsDirectories.locate? hplace⟩
    · exact hafter.located effect heffect
  · -- the paths of the first effects are followed in the last tree, too
    have hfirst : after.contentAfter place (tree.content? place) effects =
        between.content? place := by
      rw [contentAfter_of_keepsDirectories hafter.keepsDirectories place _ h.located, h.content]
    calc
      after.content? place
          = after.contentAfter place (between.content? place) later := hafter.content place
      _ = after.contentAfter place (tree.content? place) (effects ++ later) := by
          rw [contentAfter_append, hfirst]

/-- What becomes of a file does not count when its path is taken again at once. -/
theorem overwritten {first second : Option ByteArray}
    (h : tree.Undergoes (⟨path, first⟩ :: ⟨path, second⟩ :: later) after) :
    tree.Undergoes (⟨path, second⟩ :: later) after := by
  refine ⟨h.keepsDirectories, fun effect heffect => h.located effect (.tail _ heffect), ?_⟩
  intro place
  rw [h.content, contentAfter_cons, contentAfter_cons, contentAfter_cons]
  split_ifs <;> rfl

/-- A tree in which a file is put at the place that a path leads to. -/
theorem put (hplace : tree.locate? path = some place) (h : tree.isDirectory place = false)
    (content : ByteArray) :
    tree.Undergoes [⟨path, some content⟩] (tree.put place (.file content)) := by
  have hkeeps := KeepsDirectories.put h (.file content)
  refine ⟨hkeeps, ?_, fun other => ?_⟩
  · simpa using ⟨place, hkeeps.locate? hplace⟩
  · rw [content?_put h, contentAfter_cons, hkeeps.locate? hplace]
    simp [contentAfter, FileNode.content?]

/-- A tree from which the node is removed that a path leads to. -/
theorem erase (hplace : tree.locate? path = some place) (h : tree.isDirectory place = false) :
    tree.Undergoes [⟨path, none⟩] (tree.erase place) := by
  have hkeeps := KeepsDirectories.erase h
  refine ⟨hkeeps, ?_, fun other => ?_⟩
  · simpa using ⟨place, hkeeps.locate? hplace⟩
  · rw [content?_erase h, contentAfter_cons, hkeeps.locate? hplace]
    simp [contentAfter]

/-- A directory that is made where nothing stands leaves all files as they are. -/
theorem putDirectory (h : tree.node? place = none) :
    tree.Undergoes [] (tree.put place .directory) := by
  have hdirectory : tree.isDirectory place = false := by simp [isDirectory, h]
  refine ⟨.put hdirectory .directory, by simp, fun other => ?_⟩
  rw [content?_put hdirectory]
  split_ifs with hother
  · subst hother
    simp [contentAfter, content?, h, FileNode.content?]
  · rfl

end Undergoes

/-! ### Operations -/

variable {path source target : Path} {content : ByteArray}

/-- What can be read is the content of the file to which the path leads. -/
theorem read?_eq_some_iff : tree.read? path = some content ↔
    path.endsInSlash = false ∧
      ∃ place, tree.locate? path = some place ∧ tree.content? place = some content := by
  rw [read?, find?]
  cases hplace : tree.locate? path with
  | none => simp
  | some place =>
      rw [Option.bind_some]
      rcases hnode : tree.node? place with _ | _ | found
      · simp [content?, hnode]
      · simp [content?, hnode, FileNode.content?]
      · cases path.endsInSlash <;> simp [content?, hnode, FileNode.content?]

theorem write?_eq_some_iff : tree.write? path content = some after ↔
    ∃ place, tree.locate? path = some place ∧ path.endsInSlash = false ∧
      tree.isDirectory place = false ∧ after = tree.put place (.file content) := by
  rw [write?]
  cases hplace : tree.locate? path with
  | none => simp
  | some place =>
      constructor
      · intro h
        dsimp only at h
        split_ifs at h with hblocked
        cases h
        simp only [Bool.or_eq_true, not_or, Bool.not_eq_true] at hblocked
        exact ⟨place, rfl, hblocked.1, hblocked.2, rfl⟩
      · rintro ⟨_, hsame, hslash, hdirectory, rfl⟩
        cases hsame
        simp [hslash, hdirectory]

theorem undergoes_of_write? (h : tree.write? path content = some after) :
    tree.Undergoes [⟨path, some content⟩] after := by
  obtain ⟨place, hplace, -, hdirectory, rfl⟩ := write?_eq_some_iff.1 h
  exact .put hplace hdirectory content

/-- What has been written can be read. -/
theorem read?_of_write? (h : tree.write? path content = some after) :
    after.read? path = some content := by
  obtain ⟨place, hplace, hslash, hdirectory, rfl⟩ := write?_eq_some_iff.1 h
  have hput : (tree.put place (.file content)).content? place = some content := by
    rw [content?_put hdirectory, if_pos rfl]
    rfl
  exact read?_eq_some_iff.2
    ⟨hslash, place, (KeepsDirectories.put hdirectory _).locate? hplace, hput⟩

/-- A moved file is removed from its place and put at the other one. -/
theorem undergoes_of_rename? (h : tree.rename? source target = some after) :
    ∃ content, tree.read? source = some content ∧
      tree.Undergoes [⟨source, none⟩, ⟨target, some content⟩] after := by
  rw [rename?] at h
  split at h
  · rename_i fromPlace content toPlace hfrom hread hto
    split_ifs at h with htarget
    cases h
    simp only [Bool.or_eq_true, not_or, Bool.not_eq_true] at htarget
    obtain ⟨-, place, hplace, hcontent⟩ := read?_eq_some_iff.1 hread
    cases hfrom.symm.trans hplace
    have hsource := isDirectory_eq_false_of_content? hcontent
    have herase : tree.Undergoes [⟨source, none⟩] (tree.erase fromPlace) := .erase hfrom hsource
    have hput := Undergoes.put (herase.keepsDirectories.locate? hto)
      (isDirectory_erase_eq_false hsource htarget.2) content
    exact ⟨content, hread, herase.trans hput⟩
  · cases h

theorem undergoes_makeAlong (tree : FileTree) (place : Place) (names : List String) :
    tree.Undergoes [] (tree.makeAlong place names).2 := by
  induction names generalizing tree place with
  | nil => exact .refl tree
  | cons name rest ih =>
      rw [makeAlong]
      split_ifs
      · exact ih tree place
      · exact ih tree place.dropLast
      · split
        · exact ih tree _
        · exact .refl tree
        · rename_i hnode
          exact (Undergoes.putDirectory hnode).trans (ih _ _)

/-- Making directories leaves all files as they are, however far it gets. -/
theorem undergoes_makeDirectories (tree : FileTree) (path : Path) :
    tree.Undergoes [] (tree.makeDirectories path).2 := by
  rw [makeDirectories]
  split_ifs
  · exact .refl tree
  · exact undergoes_makeAlong tree _ _

end FileTree

end TableModels
