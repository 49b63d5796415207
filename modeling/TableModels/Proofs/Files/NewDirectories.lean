import TableModels.Proofs.Files.FileEffects
import TableModels.Proofs.Files.PathPlaces

/-!
# Directories with new names

When nothing in a tree goes by a name, a directory of that name can be made wherever a directory can
be made, whatever the name is, and files can be put into it. Paths in which the name does not occur
lead to what they led to before.

## Implementation notes

Making directories may stop halfway, so the directory above the new one is described by the tree
that has been prepared for it, and not by the tree at the beginning.
-/

namespace TableModels

namespace Path

variable {name : String}

theorem isAbsolute_child (path : Path) (h : IsPathPart name) :
    (path.child name).isAbsolute = path.isAbsolute := by
  rw [child]
  split_ifs with hslash
  · rw [isAbsolute, isAbsolute, String.toList_append]
    by_cases hempty : path.text = ""
    · -- the name stands alone, and does not begin with a slash
      rw [hempty]
      obtain ⟨first, rest, hname⟩ := List.exists_cons_of_ne_nil (mt String.toList_eq_nil_iff.mp h.1)
      have hfirst : first ≠ '/' := by
        rintro rfl
        exact h.2 (hname ▸ List.mem_cons_self)
      simpa [hname] using hfirst
    · rw [List.head?_append_of_ne_nil _ (mt String.toList_eq_nil_iff.mp hempty)]
  · have hne : path.text ≠ "" := by
      rintro hempty
      rw [hempty] at hslash
      exact hslash rfl
    rw [isAbsolute, isAbsolute, String.append_assoc, String.toList_append,
      List.head?_append_of_ne_nil _ (mt String.toList_eq_nil_iff.mp hne)]

theorem endsInSlash_child (path : Path) (h : IsPathPart name) :
    (path.child name).endsInSlash = false := by
  have hne : name.toList ≠ [] := mt String.toList_eq_nil_iff.mp h.1
  have hlast : (path.child name).text.toList.getLast? = name.toList.getLast? := by
    rw [child]
    split_ifs <;> simp only [String.toList_append] <;> exact List.getLast?_append_of_ne_nil _ hne
  rw [endsInSlash, hlast, beq_eq_false_iff_ne]
  intro hslash
  exact h.2 (List.mem_of_getLast? hslash)

theorem mem_text_child (path : Path) {c : Char} (hslash : c ≠ '/') :
    c ∈ (path.child name).text.toList ↔ c ∈ path.text.toList ∨ c ∈ name.toList := by
  rw [child]
  split_ifs <;> simp [hslash]

end Path

/-- A name of a file: one part of paths that is no dots and can be written. -/
structure IsFileName (name : String) : Prop where
  part : IsPathPart name
  notDot : name ≠ "."
  notUp : name ≠ ".."
  noNull : '\x00' ∉ name.toList

namespace FileTree

variable {tree other between after prepared : FileTree} {name : String} {names : List String}
  {path : Path} {place found : Place} {node : FileNode}

theorem start_child {tree : FileTree} (path : Path) (h : IsPathPart name) :
    tree.start (path.child name) = tree.start path := by
  rw [start, start, Path.isAbsolute_child path h]

theorem KeepsDirectories.start (h : tree.KeepsDirectories after) (path : Path) :
    after.start path = tree.start path := by
  rw [FileTree.start, FileTree.start, h.workingDirectory]

/-! ### Trees that agree beside a name -/

/-- Paths start at the same directory in both trees, and places without the name have the same
nodes. -/
structure AgreesBeside (name : String) (tree other : FileTree) : Prop where
  workingDirectory : other.workingDirectory = tree.workingDirectory
  node? : ∀ place, name ∉ place → other.node? place = tree.node? place

namespace AgreesBeside

theorem trans (h : tree.AgreesBeside name between) (hafter : between.AgreesBeside name after) :
    tree.AgreesBeside name after :=
  ⟨hafter.workingDirectory.trans h.workingDirectory,
    fun place hplace => (hafter.node? place hplace).trans (h.node? place hplace)⟩

/-- A node at a place with the name is beside nothing else. -/
theorem put (tree : FileTree) (hplace : name ∈ place) (node : FileNode) :
    tree.AgreesBeside name (tree.put place node) := by
  refine ⟨rfl, fun other hother => node?_put_of_ne tree node ?_⟩
  rintro rfl
  exact hother hplace

theorem isDirectory (h : tree.AgreesBeside name other) (hplace : name ∉ place) :
    other.isDirectory place = tree.isDirectory place := by
  rw [FileTree.isDirectory, FileTree.isDirectory, h.node? place hplace]

theorem follow? (h : tree.AgreesBeside name other) (hplace : name ∉ place)
    (hnames : name ∉ names) : other.follow? place names = tree.follow? place names := by
  induction names generalizing place with
  | nil => rfl
  | cons first rest ih =>
      obtain ⟨hfirst, hrest⟩ := not_or.mp (mt List.mem_cons.mpr hnames)
      have hnext : name ∉ place ++ [first] :=
        List.not_mem_append hplace (mt List.mem_singleton.mp hfirst)
      rw [FileTree.follow?, FileTree.follow?, h.isDirectory hnext, ih hplace hrest,
        ih (fun hup => hplace (List.dropLast_subset _ hup)) hrest, ih hnext hrest]

/-- Paths without the name lead to the same places. -/
theorem locate? (h : tree.AgreesBeside name other) (hworking : name ∉ tree.workingDirectory)
    (hpath : name ∉ path.segments) : other.locate? path = tree.locate? path := by
  have hstart : other.start path = tree.start path := by
    rw [start, start, h.workingDirectory]
  have hmem : name ∉ tree.start path := by
    rw [start]
    split_ifs
    · exact List.not_mem_nil
    · exact hworking
  have hnames : name ∉ path.segments.dropLast := fun hname =>
    hpath (List.dropLast_subset _ hname)
  rw [FileTree.locate?, FileTree.locate?, hstart, h.follow? hmem hnames]

/-- What is read at a path without the name is the same. -/
theorem read? (h : tree.AgreesBeside name other) (hworking : name ∉ tree.workingDirectory)
    (hpath : name ∉ path.segments) : other.read? path = tree.read? path := by
  have hfind : other.find? path = tree.find? path := by
    rw [find?, find?, h.locate? hworking hpath]
    cases hplace : tree.locate? path with
    | none => rfl
    | some place =>
        have hname : name ∉ place := by
          intro hmem
          exact (mem_of_locate? hplace name hmem).elim hworking hpath
        rw [Option.bind_some, Option.bind_some, h.node? place hname]
  rw [FileTree.read?, FileTree.read?, hfind]

end AgreesBeside

/-! ### Names that are new -/

/-- Nothing in the tree goes by the name. -/
structure Lacks (tree : FileTree) (name : String) : Prop where
  nodes : ∀ entry ∈ tree.nodes, name ∉ entry.1
  workingDirectory : name ∉ tree.workingDirectory

theorem Lacks.node?_eq_none (h : tree.Lacks name) (hplace : name ∈ place) :
    tree.node? place = none := by
  have hprefix : ¬place.isPrefixOf tree.workingDirectory = true := by
    intro hprefix
    exact h.workingDirectory ((List.isPrefixOf_iff_prefix.mp hprefix).subset hplace)
  rw [node?, if_neg hprefix, List.lookup_eq_none_iff]
  intro entry hentry
  rw [bne_iff_ne]
  rintro rfl
  exact h.nodes entry hentry hplace

theorem Lacks.put (h : tree.Lacks name) (hplace : name ∉ place) (node : FileNode) :
    (tree.put place node).Lacks name := by
  refine ⟨fun entry hentry => ?_, h.workingDirectory⟩
  rcases List.mem_cons.mp hentry with rfl | hentry
  · exact hplace
  · exact h.nodes entry (List.mem_of_mem_filter hentry)

theorem Lacks.makeAlong (h : tree.Lacks name) (hplace : name ∉ place) (hnames : name ∉ names) :
    (tree.makeAlong place names).2.Lacks name := by
  induction names generalizing tree place with
  | nil => exact h
  | cons first rest ih =>
      obtain ⟨hfirst, hrest⟩ := not_or.mp (mt List.mem_cons.mpr hnames)
      have hnext : name ∉ place ++ [first] :=
        List.not_mem_append hplace (mt List.mem_singleton.mp hfirst)
      rw [FileTree.makeAlong]
      split_ifs
      · exact ih h hplace hrest
      · exact ih h (fun hup => hplace (List.dropLast_subset _ hup)) hrest
      · split
        · exact ih h hnext hrest
        · exact h
        · exact ih (h.put hnext .directory) hnext hrest

theorem Lacks.start (h : tree.Lacks name) (path : Path) : name ∉ tree.start path := by
  rw [FileTree.start]
  split_ifs
  · exact List.not_mem_nil
  · exact h.workingDirectory

/-- Making directories without the name does not bring it in. -/
theorem Lacks.makeDirectories (h : tree.Lacks name) (hpath : name ∉ path.segments) :
    (tree.makeDirectories path).2.Lacks name := by
  rw [FileTree.makeDirectories]
  split_ifs
  · exact h
  · exact h.makeAlong (h.start path) hpath

/-! ### Directories inside directories -/

/-- The path leads to a directory. -/
structure LeadsInto (tree : FileTree) (path : Path) (place : Place) : Prop where
  noNull : '\x00' ∉ path.text.toList
  follow? : tree.follow? (tree.start path) path.segments = some place

theorem LeadsInto.locate?_child (h : tree.LeadsInto path place) (hname : IsFileName name) :
    tree.locate? (path.child name) = some (place ++ [name]) := by
  have htext : ((path.child name).text.isEmpty ||
      (path.child name).text.toList.contains '\x00') = false := by
    rw [Bool.or_eq_false_iff]
    constructor
    · have hne : (path.child name).text ≠ "" := by
        obtain ⟨c, hc⟩ := List.exists_mem_of_ne_nil _
          (mt String.toList_eq_nil_iff.mp hname.part.1)
        have hslash : c ≠ '/' := by
          rintro rfl
          exact hname.part.2 hc
        intro hempty
        have hmem := (Path.mem_text_child path hslash).mpr (Or.inr hc)
        rw [hempty] at hmem
        cases hmem
      simpa using hne
    · rw [Bool.eq_false_iff, ne_eq, List.contains_iff_mem, Path.mem_text_child path (by decide),
        not_or]
      exact ⟨h.noNull, hname.noNull⟩
  rw [FileTree.locate?, htext, Path.segments_child path hname.part, List.getLast?_concat,
    List.dropLast_concat, start_child path hname.part, h.follow?]
  simp [hname.notDot, hname.notUp]

/-- A directory in a directory is led to by its path. -/
theorem LeadsInto.child (h : tree.LeadsInto path place) (hname : IsFileName name)
    (hdirectory : tree.isDirectory (place ++ [name]) = true) :
    tree.LeadsInto (path.child name) (place ++ [name]) := by
  constructor
  case noNull =>
    rw [Path.mem_text_child path (by decide), not_or]
    exact ⟨h.noNull, hname.noNull⟩
  case follow? =>
    rw [start_child path hname.part, Path.segments_child path hname.part, follow?_append,
      h.follow?, Option.bind_some, FileTree.follow?, if_neg hname.notDot, if_neg hname.notUp,
      if_pos hdirectory]
    rfl

theorem LeadsInto.of_keepsDirectories (h : tree.LeadsInto path place)
    (hkeeps : tree.KeepsDirectories after) : after.LeadsInto path place := by
  refine ⟨h.noNull, ?_⟩
  rw [hkeeps.start]
  exact hkeeps.follow? h.follow?

/-- A directory that is made in a directory is led to by its path. -/
theorem LeadsInto.put_child (h : tree.LeadsInto path place) (hname : IsFileName name)
    (hnode : tree.node? (place ++ [name]) = none) :
    (tree.put (place ++ [name]) .directory).LeadsInto (path.child name) (place ++ [name]) := by
  have hfree : tree.isDirectory (place ++ [name]) = false := by rw [isDirectory, hnode]
  have hmade : (tree.put (place ++ [name]) .directory).isDirectory (place ++ [name]) = true := by
    rw [isDirectory, node?_put_self tree .directory hfree]
  exact (h.of_keepsDirectories (.put hfree .directory)).child hname hmade

/-- The path leads to a directory in which nothing stands but what has one of the given names. -/
structure HoldsOnly (tree : FileTree) (path : Path) (place : Place) (files : List String) :
    Prop where
  leadsInto : tree.LeadsInto path place
  others : ∀ name ∉ files, tree.node? (place ++ [name]) = none

/-- A further file can be written into such a directory. -/
theorem HoldsOnly.exists_write? {files : List String} (h : tree.HoldsOnly path place files)
    (hname : IsFileName name) (hfree : name ∉ files) (content : ByteArray) :
    ∃ written, tree.write? (path.child name) content = some written ∧
      written.HoldsOnly path place (name :: files) ∧
      ∀ part ∈ place, tree.AgreesBeside part written := by
  have hdirectory : tree.isDirectory (place ++ [name]) = false := by
    rw [isDirectory, h.others name hfree]
  refine ⟨tree.put (place ++ [name]) (.file content), ?_, ?_, ?_⟩
  · exact write?_eq_some_iff.mpr ⟨_, h.leadsInto.locate?_child hname,
      Path.endsInSlash_child path hname.part, hdirectory, rfl⟩
  · constructor
    case leadsInto => exact h.leadsInto.of_keepsDirectories (.put hdirectory _)
    case others =>
      intro other hother
      obtain ⟨hne, hrest⟩ := not_or.mp (mt List.mem_cons.mpr hother)
      rw [node?_put_of_ne tree _ (by simpa using hne)]
      exact h.others other hrest
  · intro part hpart
    exact .put tree (List.mem_append_left _ hpart) _

/-! ### Making a directory with a new name -/

theorem makeAlong_append_of_false (h : tree.makeAlong place names = (false, after))
    (later : List String) : tree.makeAlong place (names ++ later) = (false, after) := by
  induction names generalizing tree place with
  | nil => cases h
  | cons first rest ih =>
      rw [List.cons_append, makeAlong]
      rw [makeAlong] at h
      split_ifs at h ⊢
      · exact ih h
      · exact ih h
      · split at h
        · exact ih h
        · exact h
        · exact ih h

/-- Directories that could be made lead on to the one from which further directories are made. -/
theorem exists_follow?_of_makeAlong (h : tree.makeAlong place names = (true, after)) :
    ∃ found, after.follow? place names = some found ∧
      ∀ later, tree.makeAlong place (names ++ later) = after.makeAlong found later := by
  induction names generalizing tree place with
  | nil =>
      cases h
      exact ⟨place, rfl, fun _ => rfl⟩
  | cons first rest ih =>
      by_cases hdot : first = "."
      · simp only [List.cons_append, makeAlong, follow?, if_pos hdot] at h ⊢
        exact ih h
      by_cases hup : first = ".."
      · simp only [List.cons_append, makeAlong, follow?, if_neg hdot, if_pos hup] at h ⊢
        exact ih h
      simp only [List.cons_append, makeAlong, follow?, if_neg hdot, if_neg hup] at h ⊢
      split at h
      · rename_i hnode
        have hdirectory : after.isDirectory (place ++ [first]) = true := by
          have hkeeps := (undergoes_makeAlong tree (place ++ [first]) rest).keepsDirectories
          rw [h] at hkeeps
          exact hkeeps.isDirectory _ (by rw [isDirectory, hnode])
        rw [if_pos hdirectory]
        exact ih h
      · cases h
      · rename_i hnode
        have hdirectory : after.isDirectory (place ++ [first]) = true := by
          have hkeeps := (undergoes_makeAlong (tree.put (place ++ [first]) .directory)
            (place ++ [first]) rest).keepsDirectories
          rw [h] at hkeeps
          apply hkeeps.isDirectory
          rw [isDirectory, node?_put_self tree .directory (by rw [isDirectory, hnode])]
        rw [if_pos hdirectory]
        exact ih h

/-- Where no directory can be made, none of a new name can. -/
theorem makeDirectories_child_of_false (hname : IsFileName name)
    (h : tree.makeDirectories path = (false, after)) :
    tree.makeDirectories (path.child name) = (false, after) := by
  rw [makeDirectories] at h ⊢
  simp only [List.contains_iff_mem, Path.mem_text_child path (show '\x00' ≠ '/' by decide),
    hname.noNull, or_false] at h ⊢
  split_ifs at h ⊢
  · exact h
  · rw [start_child path hname.part, Path.segments_child path hname.part]
    exact makeAlong_append_of_false h [name]

/-- Where directories can be made, one of a new name can be made in the last of them, and it is
empty. -/
theorem exists_makeDirectories_child (hname : IsFileName name) (hlacks : tree.Lacks name)
    (hpath : name ∉ path.segments) (h : tree.makeDirectories path = (true, prepared)) :
    ∃ made place, tree.makeDirectories (path.child name) = (true, made) ∧
      made.HoldsOnly (path.child name) place [] ∧ name ∈ place ∧
      prepared.AgreesBeside name made := by
  have hprepared : (tree.makeDirectories path).2.Lacks name := hlacks.makeDirectories hpath
  have hkeeps := (undergoes_makeDirectories tree path).keepsDirectories
  rw [h] at hprepared hkeeps
  rw [makeDirectories] at h ⊢
  simp only [List.contains_iff_mem, Path.mem_text_child path (show '\x00' ≠ '/' by decide),
    hname.noNull, or_false] at h ⊢
  by_cases hnull : '\x00' ∈ path.text.toList
  · rw [if_pos hnull] at h
    cases h
  rw [if_neg hnull] at h ⊢
  obtain ⟨place, hfollow, hfurther⟩ := exists_follow?_of_makeAlong h
  have hmem : name ∈ place ++ [name] := List.mem_append_right _ List.mem_cons_self
  have hnode : prepared.node? (place ++ [name]) = none := hprepared.node?_eq_none hmem
  refine ⟨prepared.put (place ++ [name]) .directory, place ++ [name], ?_, ⟨?_, ?_⟩, hmem,
    .put prepared hmem .directory⟩
  · calc
      tree.makeAlong (tree.start (path.child name)) (path.child name).segments
          = tree.makeAlong (tree.start path) (path.segments ++ [name]) := by
            rw [start_child path hname.part, Path.segments_child path hname.part]
      _ = prepared.makeAlong place [name] := hfurther [name]
      _ = (true, prepared.put (place ++ [name]) .directory) := by
            simp only [makeAlong, if_neg hname.notDot, if_neg hname.notUp, hnode]
  · have hleads : prepared.LeadsInto path place := by
      refine ⟨hnull, ?_⟩
      rw [hkeeps.start]
      exact hfollow
    exact hleads.put_child hname hnode
  · intro file _
    rw [node?_put_of_ne prepared .directory (by simp)]
    exact hprepared.node?_eq_none (List.mem_append_left _ hmem)

end FileTree

end TableModels
