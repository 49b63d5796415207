import TableModels.Proofs.Files.ChangedPaths
import TableModels.Proofs.Files.SiblingPaths

/-!
# Atomic writes

An atomic write puts its file into place or spares what is there. It succeeds when the directories
above the file can be made and there is room for the file and for its temporary file, and then the
temporary file is gone. When it fails, at whichever step, no file but the temporary one has changed.

## Implementation notes

The path is followed in the tree in which the directories above it have been made. Neither the
temporary file nor its removal changes where a path leads, because no directory comes or goes with
them (`KeepsDirectories` holds in both directions).
-/

namespace TableModels

/-- The temporary file of a file has a name that a file can have. -/
theorem isFileName_temporary {name : String} (hpart : IsPathPart name)
    (hnull : '\x00' ∉ name.toList) : IsFileName ("." ++ name ++ ".tmp") where
  part := isPathPart_temporaryName hpart
  notDot := temporaryName_ne name (by decide)
  notUp := temporaryName_ne name (by decide)
  noNull := notMem_temporaryName (by decide) hnull

namespace FileTree

variable {tree prepared after : FileTree} {path source target temporary : Path}
  {place other beside : Place} {content : ByteArray}

/-! ### Changes that leave all directories -/

theorem KeepsDirectories.locate?_eq (h : tree.KeepsDirectories after)
    (hback : after.KeepsDirectories tree) (path : Path) : after.locate? path = tree.locate? path :=
  Option.ext fun _ => ⟨hback.locate?, h.locate?⟩

theorem isDirectory_put_file (h : tree.isDirectory place = false) (content : ByteArray) :
    (tree.put place (.file content)).isDirectory place = false := by
  rw [isDirectory, node?_put_self tree _ h]

/-- A file that is put where there is no directory takes the place of none. -/
theorem KeepsDirectories.of_put (h : tree.isDirectory place = false) (content : ByteArray) :
    (tree.put place (.file content)).KeepsDirectories tree :=
  of_node? rfl (isDirectory_put_file h content) fun _ hne => (node?_put_of_ne tree _ hne).symm

theorem KeepsDirectories.of_erase (h : tree.isDirectory place = false) :
    (tree.erase place).KeepsDirectories tree :=
  of_node? rfl (isDirectory_erase_eq_false h h) fun _ hne => (node?_erase_of_ne tree hne).symm

theorem KeepsDirectories.isDirectory_eq_false (h : tree.KeepsDirectories after)
    (hplace : after.isDirectory place = false) : tree.isDirectory place = false := by
  rw [Bool.eq_false_iff] at hplace ⊢
  exact mt (h.isDirectory place) hplace

theorem rename?_eq_some_iff : tree.rename? source target = some after ↔
    ∃ place content other, tree.locate? source = some place ∧ tree.read? source = some content ∧
      tree.locate? target = some other ∧ target.endsInSlash = false ∧
      tree.isDirectory other = false ∧ after = (tree.erase place).put other (.file content) := by
  rw [rename?]
  constructor
  · intro h
    split at h
    · rename_i place content other hplace hread hother
      split_ifs at h with hblocked
      cases h
      simp only [Bool.or_eq_true, not_or, Bool.not_eq_true] at hblocked
      exact ⟨place, content, other, hplace, hread, hother, hblocked.1, hblocked.2, rfl⟩
    · cases h
  · rintro ⟨place, content, other, hplace, hread, hother, hslash, hdirectory, rfl⟩
    simp [hplace, hread, hother, hslash, hdirectory]

/-! ### Room for a file -/

/-- A file can be written at the path: it leads to a place where there is no directory, and there is
none where the temporary file belongs. -/
structure HasRoomFor (tree : FileTree) (path : Path) : Prop where
  noSlash : path.endsInSlash = false
  place : ∃ place, tree.locate? path = some place ∧ tree.isDirectory place = false
  temporary : ∀ temporary ∈ temporaryPath? path, ∀ place, tree.locate? temporary = some place →
    tree.isDirectory place = false

/-- The tree in which a file has come to its place by way of a temporary one. -/
def replace (tree : FileTree) (place beside : Place) (content : ByteArray) : FileTree :=
  ((tree.put beside (.file content)).erase beside).put place (.file content)

/-- The place beside a file at which its temporary file belongs. -/
def temporaryPlace (place : Place) : Place :=
  place.dropLast ++ ["." ++ place.getLastD "" ++ ".tmp"]

/-- Whichever path leads to a file, its temporary file belongs at the same place. -/
theorem exists_locate?_temporary (h : tree.locate? path = some place)
    (hfile : tree.isDirectory place = false) :
    ∃ temporary, temporaryPath? path = some temporary ∧ temporary.endsInSlash = false ∧
      tree.locate? temporary = some (temporaryPlace place) ∧ temporaryPlace place ≠ place ∧
      tree.makeDirectories path.parent = (true, tree) := by
  obtain ⟨directory, name, hname, hsame, hcomponent, hnull, hleads⟩ :=
    exists_leadsInto_parent h hfile
  have htemporary : temporaryPath? path = some (path.sibling ("." ++ name ++ ".tmp")) := by
    rw [temporaryPath?, hname, Option.map_some]
  have hsibling := isFileName_temporary (Path.isPathPart_of_mem_components hcomponent)
    (Path.noNull_of_mem_components hnull hcomponent)
  have hbeside : tree.locate? (path.sibling ("." ++ name ++ ".tmp")) =
      some (temporaryPlace place) := by
    rw [hleads.locate?_sibling hsibling, hsame, temporaryPlace, List.dropLast_concat,
      List.getLastD_concat]
  refine ⟨_, htemporary, path.endsInSlash_sibling hsibling.part, hbeside, fun hbad => ?_,
    hleads.makeDirectories⟩
  rw [hbad] at hbeside
  exact locate?_temporary_ne htemporary h hbeside

/-! ### The tree with a file in its place -/

section Replace

variable (hplace : tree.isDirectory place = false) (hbeside : tree.isDirectory beside = false)

include hbeside in
/-- The temporary file has come and gone, and no directory with it. -/
theorem isDirectory_erase_put (hother : tree.isDirectory other = false) (content : ByteArray) :
    ((tree.put beside (.file content)).erase beside).isDirectory other = false := by
  have hput := isDirectory_put_file hbeside content
  apply (KeepsDirectories.of_erase hput).isDirectory_eq_false
  exact (KeepsDirectories.of_put hbeside content).isDirectory_eq_false hother

include hplace hbeside

theorem KeepsDirectories.replace (content : ByteArray) :
    tree.KeepsDirectories (tree.replace place beside content) := by
  have hput := isDirectory_put_file hbeside content
  have herased := isDirectory_erase_put hbeside hplace content
  exact ((KeepsDirectories.put hbeside _).trans (.erase hput)).trans (.put herased _)

theorem KeepsDirectories.of_replace (content : ByteArray) :
    (tree.replace place beside content).KeepsDirectories tree := by
  have hput := isDirectory_put_file hbeside content
  have herased := isDirectory_erase_put hbeside hplace content
  exact ((of_put herased content).trans (of_erase hput)).trans (of_put hbeside content)

theorem node?_replace_self (content : ByteArray) :
    (tree.replace place beside content).node? place = some (.file content) :=
  node?_put_self _ _ (isDirectory_erase_put hbeside hplace content)

omit hplace in
theorem node?_replace_beside (hne : beside ≠ place) (content : ByteArray) :
    (tree.replace place beside content).node? beside = none := by
  rw [replace, node?_put_of_ne _ _ hne]
  exact node?_erase_self (isDirectory_put_file hbeside content)

omit hplace hbeside in
theorem node?_replace_of_ne (hother : other ≠ place) (hne : other ≠ beside) (content : ByteArray) :
    (tree.replace place beside content).node? other = tree.node? other := by
  rw [replace, node?_put_of_ne _ _ hother, node?_erase_of_ne _ hne, node?_put_of_ne _ _ hne]

end Replace

/-! ### Writing atomically -/

/-- Where there is room for it, a file is replaced. -/
theorem HasRoomFor.exists_run (h : prepared.HasRoomFor path)
    (hmade : tree.makeDirectories path.parent = (true, prepared)) (content : ByteArray) :
    ∃ place temporary, prepared.locate? path = some place ∧
      prepared.isDirectory place = false ∧ temporaryPath? path = some temporary ∧
      prepared.locate? temporary = some (temporaryPlace place) ∧
      prepared.isDirectory (temporaryPlace place) = false ∧ temporaryPlace place ≠ place ∧
      (writeAtomically path content).run.run tree =
        (.ok (), prepared.replace place (temporaryPlace place) content) := by
  obtain ⟨place, hplace, hfile⟩ := h.place
  obtain ⟨temporary, htemporary, hslash, hbeside, hne, -⟩ := exists_locate?_temporary hplace hfile
  have hfree := h.temporary temporary htemporary _ hbeside
  have hkeeps := KeepsDirectories.put hfree (.file content)
  have hwrite : prepared.write? temporary content =
      some (prepared.put (temporaryPlace place) (.file content)) :=
    write?_eq_some_iff.mpr ⟨_, hbeside, hslash, hfree, rfl⟩
  have hrename : (prepared.put (temporaryPlace place) (.file content)).rename? temporary path =
      some (prepared.replace place (temporaryPlace place) content) := by
    apply rename?_eq_some_iff.mpr
    exact ⟨_, content, place, hkeeps.locate? hbeside, read?_of_write? hwrite,
      hkeeps.locate? hplace, h.noSlash,
      (KeepsDirectories.of_put hfree content).isDirectory_eq_false hfile, rfl⟩
  refine ⟨place, temporary, hplace, hfile, htemporary, hbeside, hfree, hne, ?_⟩
  simp only [run_writeAtomically, hmade, htemporary, hwrite, hrename]

/-- A file is replaced only where there is room for it. -/
theorem exists_hasRoomFor_of_run
    (h : (writeAtomically path content).run.run tree = (.ok (), after)) :
    ∃ prepared, tree.makeDirectories path.parent = (true, prepared) ∧ prepared.HasRoomFor path := by
  rw [run_writeAtomically] at h
  split at h
  · cases h
  · rename_i prepared hmade
    refine ⟨prepared, hmade, ?_⟩
    split at h
    · cases h
    · rename_i temporary htemporary
      split at h
      · cases h
      · rename_i filled hwrite
        split at h
        · cases h
        · rename_i moved hrename
          obtain ⟨beside, hbeside, -, hfree, rfl⟩ := write?_eq_some_iff.mp hwrite
          obtain ⟨-, -, place, -, -, hplace, hslash, hfile, -⟩ := rename?_eq_some_iff.mp hrename
          have hkeeps := KeepsDirectories.put hfree (.file content)
          refine ⟨hslash, ⟨place, ?_, hkeeps.isDirectory_eq_false hfile⟩, ?_⟩
          · exact (KeepsDirectories.of_put hfree content).locate? hplace
          · rintro other hother place hlocated
            cases htemporary.symm.trans hother
            cases hbeside.symm.trans hlocated
            exact hfree

/-- The file at the path has the content, and its temporary file is gone. Every other file is as it
was. -/
structure Replaces (tree : FileTree) (path : Path) (content : ByteArray) (after : FileTree) :
    Prop where
  content : after.read? path = some content
  temporary : ∃ temporary, temporaryPath? path = some temporary ∧ after.find? temporary = none
  others : ∀ place, after.locate? path ≠ some place →
    (∀ temporary ∈ temporaryPath? path, after.locate? temporary ≠ some place) →
      after.content? place = tree.content? place

/-- Every file but the temporary one is as it was, and so is the file at the path. -/
structure SparesFiles (tree : FileTree) (path : Path) (after : FileTree) : Prop where
  target : ∀ place, after.locate? path = some place → after.content? place = tree.content? place
  others : ∀ place, (∀ temporary ∈ temporaryPath? path, after.locate? temporary ≠ some place) →
    after.content? place = tree.content? place

theorem HasRoomFor.replaces (h : prepared.HasRoomFor path)
    (hmade : tree.makeDirectories path.parent = (true, prepared)) (content : ByteArray) :
    ∃ after, (writeAtomically path content).run.run tree = (.ok (), after) ∧
      tree.KeepsDirectories after ∧ tree.Replaces path content after := by
  obtain ⟨place, temporary, hplace, hfile, htemporary, hbeside, hfree, hne, hrun⟩ :=
    h.exists_run hmade content
  have hprepares := undergoes_makeDirectories tree path.parent
  rw [hmade] at hprepares
  have hkeeps := KeepsDirectories.replace hfile hfree content
  refine ⟨_, hrun, hprepares.keepsDirectories.trans hkeeps, ?_, ?_, ?_⟩
  · apply read?_eq_some_iff.mpr
    exact ⟨h.noSlash, place, hkeeps.locate? hplace,
      content?_eq_some_iff.mpr (node?_replace_self hfile hfree content)⟩
  · refine ⟨temporary, htemporary, ?_⟩
    rw [find?, hkeeps.locate? hbeside, Option.bind_some, node?_replace_beside hfree hne content]
  · intro other hother hapart
    have hotherPlace : other ≠ place := by
      rintro rfl
      exact hother (hkeeps.locate? hplace)
    have hotherBeside : other ≠ temporaryPlace place := by
      rintro rfl
      exact hapart temporary htemporary (hkeeps.locate? hbeside)
    calc
      (prepared.replace place (temporaryPlace place) content).content? other =
          prepared.content? other := by
        rw [content?, node?_replace_of_ne hotherPlace hotherBeside content, ← content?]
      _ = tree.content? other := hprepares.content other

theorem sparesFiles_of_run_error {error : WriteError}
    (h : (writeAtomically path content).run.run tree = (.error error, after)) :
    tree.KeepsDirectories after ∧ tree.SparesFiles path after := by
  have hchanges := changesOnly_of_writeAtomically_error h
  obtain ⟨effects, -, hundergoes⟩ := id hchanges
  refine ⟨hundergoes.keepsDirectories, ?_, ?_⟩
  · intro place hplace
    apply hchanges.content?
    intro temporary htemporary
    exact locate?_temporary_ne (Option.mem_toList.mp htemporary) hplace
  · intro place hapart
    apply hchanges.content?
    intro temporary htemporary
    exact hapart temporary (Option.mem_toList.mp htemporary)

/-- An atomic write replaces the file at its path, or fails and spares it. It never removes a
directory, and it touches no file but the one at the path and the temporary one beside it. It
succeeds exactly when the directories above the file can be made and leave room for it. -/
theorem replaces_or_spares (tree : FileTree) (path : Path) (content : ByteArray) :
    ∃ result after, (writeAtomically path content).run.run tree = (result, after) ∧
      tree.KeepsDirectories after ∧
      (result = .ok () ↔
        ∃ prepared, tree.makeDirectories path.parent = (true, prepared) ∧
          prepared.HasRoomFor path) ∧
      match result with
      | .ok () => tree.Replaces path content after
      | .error _ => tree.SparesFiles path after := by
  rcases hrun : (writeAtomically path content).run.run tree with ⟨error | _, after⟩
  · obtain ⟨hkeeps, hspares⟩ := sparesFiles_of_run_error hrun
    refine ⟨_, _, rfl, hkeeps, ⟨nofun, ?_⟩, hspares⟩
    rintro ⟨prepared, hmade, hroom⟩
    obtain ⟨moved, hmoved, -⟩ := hroom.replaces hmade content
    cases hrun.symm.trans hmoved
  · obtain ⟨prepared, hmade, hroom⟩ := exists_hasRoomFor_of_run hrun
    obtain ⟨moved, hmoved, hkeeps, hreplaces⟩ := hroom.replaces hmade content
    cases hrun.symm.trans hmoved
    exact ⟨_, _, rfl, hkeeps, ⟨fun _ => ⟨prepared, hmade, hroom⟩, fun _ => rfl⟩, hreplaces⟩

end FileTree

end TableModels
