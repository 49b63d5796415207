import Mathlib.Algebra.BigOperators.Group.Finset.Basic
import TableModels.Command.RestoreAuditCalls
import TableModels.Proofs.AuditCalls.Restoration
import TableModels.Proofs.Files.AtomicWrites

/-!
# Files restored one after the other

The restoring command reads and writes its files one after the other, and it may be given paths that
lead to the same file. It changes the files before the first path without a readable text, and it
counts each disabled call once.

## Implementation notes

A file is named by its place, because several paths can lead there. A restored file holds no
disabled call any more, so the second path to it finds nothing to do. What a run does is put
together from what it does for its first path and for the others (`RestoresFiles.append`).
-/

namespace TableModels

open AuditCalls (restore restore_restore)

namespace FileTree

/-- The text of the file that a path leads to. -/
def text? (tree : FileTree) (path : Path) : Option String :=
  (tree.read? path).bind String.fromUTF8?

/-- How many paths there are before the first one without a readable text. -/
def firstUnreadable (tree : FileTree) (paths : List Path) : Nat :=
  paths.findIdx fun path => (tree.text? path).isNone

/-- How many disabled calls there are in the file at a place. -/
def disabledCalls (tree : FileTree) (place : Place) : Nat :=
  ((tree.content? place).bind String.fromUTF8?).elim 0 fun text => (restore text).2

/-- The places that paths lead to. -/
def placesOf (tree : FileTree) (paths : List Path) : Finset Place :=
  (paths.filterMap tree.locate?).toFinset

/-- The places of the temporary files of paths. -/
def temporariesOf (tree : FileTree) (paths : List Path) : Finset Place :=
  (paths.filterMap fun path => (temporaryPath? path).bind tree.locate?).toFinset

/-- The temporary files of the paths are no directories, and none of the paths leads to one. -/
structure LeavesRoomFor (tree : FileTree) (paths : List Path) : Prop where
  free : ∀ place ∈ tree.temporariesOf paths, tree.isDirectory place = false
  unlisted : ∀ place ∈ tree.temporariesOf paths, place ∉ tree.placesOf paths

/-- The files of the paths are restored. Nothing else changes, but that the temporary files of those
that had disabled calls are gone. -/
structure RestoresFiles (tree : FileTree) (paths : List Path) (after : FileTree) : Prop where
  keeps : tree.KeepsDirectories after
  kept : after.KeepsDirectories tree
  restored : ∀ place ∈ tree.placesOf paths, ∃ text, tree.content? place = some text.toUTF8 ∧
    after.content? place = some (restore text).1.toUTF8
  cleared : ∀ place ∈ tree.placesOf paths, tree.disabledCalls place ≠ 0 →
    after.node? (temporaryPlace place) = none
  others : ∀ place, place ∉ tree.placesOf paths →
    (∀ listed ∈ tree.placesOf paths, tree.disabledCalls listed ≠ 0 →
      place ≠ temporaryPlace listed) → after.node? place = tree.node? place

variable {tree between after : FileTree} {path temporary : Path} {paths front rest : List Path}
  {place other : Place} {text : String}

/-! ### Texts and places -/

theorem text?_eq_some_iff : tree.text? path = some text ↔ path.endsInSlash = false ∧
    ∃ place, tree.locate? path = some place ∧ tree.content? place = some text.toUTF8 := by
  rw [text?, Option.bind_eq_some_iff]
  constructor
  · rintro ⟨bytes, hread, htext⟩
    rw [fromUTF8?_eq_some_iff.mp htext] at hread
    exact read?_eq_some_iff.mp hread
  · intro h
    exact ⟨_, read?_eq_some_iff.mpr h, fromUTF8?_eq_some_iff.mpr rfl⟩

theorem exists_text?_of_mem_take (h : path ∈ paths.take (tree.firstUnreadable paths)) :
    ∃ text, tree.text? path = some text := by
  obtain ⟨i, hi, rfl⟩ := List.mem_take_iff_getElem.mp h
  have hlt : i < paths.findIdx fun path => (tree.text? path).isNone := (lt_min_iff.mp hi).1
  exact Option.isSome_iff_exists.mp (by simpa using List.not_of_lt_findIdx hlt)

theorem text?_eq_none_of_firstUnreadable (h : paths[tree.firstUnreadable paths]? = some path) :
    tree.text? path = none := by
  obtain ⟨hlt, rfl⟩ := List.getElem?_eq_some_iff.mp h
  exact Option.isNone_iff_eq_none.mp (List.findIdx_getElem (w := hlt))

theorem disabledCalls_of_content? (h : tree.content? place = some text.toUTF8) :
    tree.disabledCalls place = (restore text).2 := by
  rw [disabledCalls, h, Option.bind_some, fromUTF8?_eq_some_iff.mpr rfl]
  rfl

theorem mem_placesOf_iff :
    place ∈ tree.placesOf paths ↔ ∃ path ∈ paths, tree.locate? path = some place := by
  rw [placesOf, List.mem_toFinset, List.mem_filterMap]

theorem mem_temporariesOf (hpath : path ∈ paths) (htemporary : temporaryPath? path = some temporary)
    (hplace : tree.locate? temporary = some place) : place ∈ tree.temporariesOf paths := by
  rw [temporariesOf, List.mem_toFinset, List.mem_filterMap]
  exact ⟨path, hpath, by rw [htemporary, Option.bind_some, hplace]⟩

theorem LeavesRoomFor.of_subset (h : tree.LeavesRoomFor paths) (hsubset : front ⊆ paths) :
    tree.LeavesRoomFor front := by
  have hplaces : ∀ place ∈ tree.placesOf front, place ∈ tree.placesOf paths := by
    simp only [placesOf, List.mem_toFinset]
    exact fun _ hplace => List.filterMap_subset _ hsubset hplace
  have htemporaries : ∀ place ∈ tree.temporariesOf front, place ∈ tree.temporariesOf paths := by
    simp only [temporariesOf, List.mem_toFinset]
    exact fun _ hplace => List.filterMap_subset _ hsubset hplace
  exact ⟨fun place hplace => h.free place (htemporaries place hplace),
    fun place hplace => mt (hplaces place) (h.unlisted place (htemporaries place hplace))⟩

/-! ### Restored files -/

namespace RestoresFiles

variable (h : tree.RestoresFiles paths after)

include h

theorem locate?_eq (path : Path) : after.locate? path = tree.locate? path :=
  h.keeps.locate?_eq h.kept path

theorem placesOf_eq (rest : List Path) : after.placesOf rest = tree.placesOf rest := by
  rw [placesOf, placesOf, funext h.locate?_eq]

theorem leavesRoomFor (hroom : tree.LeavesRoomFor rest) : after.LeavesRoomFor rest := by
  have htemporaries : after.temporariesOf rest = tree.temporariesOf rest := by
    rw [temporariesOf, temporariesOf, funext h.locate?_eq]
  constructor
  · rw [htemporaries]
    exact fun place hplace => h.kept.isDirectory_eq_false (hroom.free place hplace)
  · rw [htemporaries, h.placesOf_eq]
    exact hroom.unlisted

variable {all : List Path} (hroom : tree.LeavesRoomFor all) (hsubset : paths ⊆ all)

include hroom hsubset

/-- None of the paths leads to the temporary file of a restored file. -/
theorem ne_temporaryPlace (hplace : place ∈ tree.placesOf paths)
    (hother : other ∈ tree.placesOf all) : other ≠ temporaryPlace place := by
  rintro rfl
  obtain ⟨path, hpath, hlocated⟩ := mem_placesOf_iff.mp hplace
  obtain ⟨text, htext, -⟩ := h.restored place hplace
  obtain ⟨temporary, htemporary, -, hbeside, -⟩ :=
    exists_locate?_temporary hlocated (isDirectory_eq_false_of_content? htext)
  exact hroom.unlisted _ (mem_temporariesOf (hsubset hpath) htemporary hbeside) hother

/-- A file that none of the restored paths leads to is as it was when another path leads there. -/
theorem node?_of_notMem (hplace : place ∈ tree.placesOf all) (hnot : place ∉ tree.placesOf paths) :
    after.node? place = tree.node? place := by
  refine h.others place hnot fun listed hlisted _ => ?_
  exact h.ne_temporaryPlace hroom hsubset hlisted hplace

omit hroom hsubset

/-- A restored file has no disabled call any more. -/
theorem disabledCalls_eq_zero (hplace : place ∈ tree.placesOf paths) :
    after.disabledCalls place = 0 := by
  obtain ⟨text, -, hafter⟩ := h.restored place hplace
  rw [disabledCalls_of_content? hafter, restore_restore]

include hroom hsubset

theorem disabledCalls_of_notMem (hplace : place ∈ tree.placesOf all)
    (hnot : place ∉ tree.placesOf paths) :
    after.disabledCalls place = tree.disabledCalls place := by
  rw [disabledCalls, content?, h.node?_of_notMem hroom hsubset hplace hnot, ← content?,
    ← disabledCalls]

/-- Where a text could be read one can be read now, and nowhere else. -/
theorem exists_text?_iff (hpath : path ∈ all) :
    (∃ text, after.text? path = some text) ↔ ∃ text, tree.text? path = some text := by
  have hcontent : ∀ place, tree.locate? path = some place →
      ((∃ text : String, after.content? place = some text.toUTF8) ↔
        ∃ text : String, tree.content? place = some text.toUTF8) := by
    intro place hplace
    by_cases hmem : place ∈ tree.placesOf paths
    · obtain ⟨text, htext, hafter⟩ := h.restored place hmem
      exact ⟨fun _ => ⟨text, htext⟩, fun _ => ⟨_, hafter⟩⟩
    · have hall := mem_placesOf_iff.mpr ⟨path, hpath, hplace⟩
      rw [content?, content?, h.node?_of_notMem hroom hsubset hall hmem]
  simp only [text?_eq_some_iff, h.locate?_eq]
  constructor
  · rintro ⟨text, hslash, place, hplace, htext⟩
    obtain ⟨found, hfound⟩ := (hcontent place hplace).mp ⟨text, htext⟩
    exact ⟨found, hslash, place, hplace, hfound⟩
  · rintro ⟨text, hslash, place, hplace, htext⟩
    obtain ⟨found, hfound⟩ := (hcontent place hplace).mpr ⟨text, htext⟩
    exact ⟨found, hslash, place, hplace, hfound⟩

omit hroom hsubset

theorem text?_eq (hpath : path ∈ paths) (hread : tree.text? path = some text) :
    after.text? path = some (restore text).1 := by
  obtain ⟨hslash, place, hplace, htext⟩ := text?_eq_some_iff.mp hread
  obtain ⟨found, hfound, hafter⟩ := h.restored place (mem_placesOf_iff.mpr ⟨path, hpath, hplace⟩)
  obtain rfl : text = found :=
    String.toByteArray_inj.mp (Option.some.inj (htext.symm.trans hfound))
  exact text?_eq_some_iff.mpr ⟨hslash, place, h.locate?_eq path ▸ hplace, hafter⟩

end RestoresFiles

/-! ### One path after the other -/

section Append

variable (h : tree.RestoresFiles front between) (hrest : between.RestoresFiles rest after)
  (hroom : tree.LeavesRoomFor (front ++ rest))

include h in
theorem mem_placesOf_append_iff :
    place ∈ tree.placesOf (front ++ rest) ↔
      place ∈ tree.placesOf front ∨ place ∈ between.placesOf rest := by
  rw [placesOf, List.filterMap_append, List.toFinset_append, Finset.mem_union, ← placesOf,
    ← placesOf, h.placesOf_eq]

include h hrest hroom

/-- A file that only the first paths lead to is restored with them. -/
theorem content?_of_notMem_rest (hplace : place ∈ tree.placesOf (front ++ rest))
    (hnot : place ∉ between.placesOf rest) : after.content? place = between.content? place := by
  have hmem : place ∈ between.placesOf (front ++ rest) := (h.placesOf_eq _).symm ▸ hplace
  rw [content?, hrest.node?_of_notMem (h.leavesRoomFor hroom) (List.subset_append_right front rest)
    hmem hnot, ← content?]

/-- A file that both lead to is restored by the first of them, and the others leave it. -/
theorem restored_append (hplace : place ∈ tree.placesOf (front ++ rest)) :
    ∃ text, tree.content? place = some text.toUTF8 ∧
      after.content? place = some (restore text).1.toUTF8 := by
  by_cases hagain : place ∈ between.placesOf rest
  · obtain ⟨text, htext, hafter⟩ := hrest.restored place hagain
    by_cases hbefore : place ∈ tree.placesOf front
    · obtain ⟨first, hfirst, hbetween⟩ := h.restored place hbefore
      obtain rfl : (restore first).1 = text :=
        String.toByteArray_inj.mp (Option.some.inj (hbetween.symm.trans htext))
      rw [restore_restore] at hafter
      exact ⟨first, hfirst, hafter⟩
    · rw [content?, h.node?_of_notMem hroom (List.subset_append_left front rest) hplace hbefore]
        at htext
      exact ⟨text, htext, hafter⟩
  · rw [content?_of_notMem_rest h hrest hroom hplace hagain]
    exact h.restored place (((mem_placesOf_append_iff h).mp hplace).resolve_right hagain)

/-- A temporary file that is gone does not come back, or is gone again in the end. -/
theorem cleared_append (hplace : place ∈ tree.placesOf (front ++ rest))
    (hne : tree.disabledCalls place ≠ 0) : after.node? (temporaryPlace place) = none := by
  have hsubset := List.subset_append_left front rest
  by_cases hbefore : place ∈ tree.placesOf front
  · by_cases hagain : ∃ listed ∈ between.placesOf rest, between.disabledCalls listed ≠ 0 ∧
        temporaryPlace place = temporaryPlace listed
    · obtain ⟨listed, hlisted, hleft, heq⟩ := hagain
      rw [heq]
      exact hrest.cleared listed hlisted hleft
    · rw [hrest.others, h.cleared place hbefore hne]
      · intro hmem
        exact h.ne_temporaryPlace hroom hsubset hbefore
          ((mem_placesOf_append_iff h).mpr (.inr hmem)) rfl
      · intro listed hlisted hleft heq
        exact hagain ⟨listed, hlisted, hleft, heq⟩
  · refine hrest.cleared place
      (((mem_placesOf_append_iff h).mp hplace).resolve_left hbefore) ?_
    rwa [disabledCalls, content?, h.node?_of_notMem hroom hsubset hplace hbefore]

/-- What is restored for some paths and then for others is restored for all of them. -/
theorem RestoresFiles.append : tree.RestoresFiles (front ++ rest) after where
  keeps := h.keeps.trans hrest.keeps
  kept := hrest.kept.trans h.kept
  restored _ := restored_append h hrest hroom
  cleared _ := cleared_append h hrest hroom
  others place hnot hapart := by
    rw [mem_placesOf_append_iff h, not_or] at hnot
    calc
      after.node? place = between.node? place := by
        apply hrest.others place hnot.2
        intro listed hlisted hne
        have hmem := (mem_placesOf_append_iff h).mpr (.inr hlisted)
        apply hapart listed hmem
        rwa [← h.disabledCalls_of_notMem hroom (List.subset_append_left front rest) hmem
          (mt h.disabledCalls_eq_zero hne)]
      _ = tree.node? place := by
        apply h.others place hnot.1
        intro listed hlisted hne
        exact hapart listed ((mem_placesOf_append_iff h).mpr (.inl hlisted)) hne

omit hrest in
/-- A disabled call is counted where it is restored, and never again. -/
theorem sum_disabledCalls_append :
    ∑ place ∈ tree.placesOf (front ++ rest), tree.disabledCalls place =
      (∑ place ∈ tree.placesOf front, tree.disabledCalls place) +
        ∑ place ∈ between.placesOf rest, between.disabledCalls place := by
  have hunion : tree.placesOf (front ++ rest) =
      tree.placesOf front ∪ (between.placesOf rest \ tree.placesOf front) := by
    ext place
    rw [Finset.union_sdiff_self_eq_union, Finset.mem_union, mem_placesOf_append_iff h]
  rw [hunion, Finset.sum_union Finset.disjoint_sdiff]
  congr 1
  apply Finset.sum_subset_zero_on_sdiff Finset.sdiff_subset
  · intro place hplace
    apply h.disabledCalls_eq_zero
    simp only [Finset.mem_sdiff, not_and, not_not] at hplace
    exact hplace.2 hplace.1
  · intro place hplace
    obtain ⟨hrest, hnot⟩ := Finset.mem_sdiff.mp hplace
    have hmem := (mem_placesOf_append_iff h).mpr (.inr hrest)
    exact (h.disabledCalls_of_notMem hroom (List.subset_append_left front rest) hmem hnot).symm

end Append

/-! ### A single path -/

theorem restoresFiles_nil (tree : FileTree) : tree.RestoresFiles [] tree where
  keeps := .refl tree
  kept := .refl tree
  restored _ hplace := absurd hplace (Finset.notMem_empty _)
  cleared _ hplace := absurd hplace (Finset.notMem_empty _)
  others _ _ _ := rfl

theorem mem_placesOf_singleton_iff (h : tree.locate? path = some place) :
    other ∈ tree.placesOf [path] ↔ other = place := by
  simp [mem_placesOf_iff, h, eq_comm]

/-- A file without disabled calls is restored as it is. -/
theorem restoresFiles_refl (hplace : tree.locate? path = some place)
    (htext : tree.content? place = some text.toUTF8) (hcount : (restore text).2 = 0) :
    tree.RestoresFiles [path] tree where
  keeps := .refl tree
  kept := .refl tree
  restored other hother := by
    obtain rfl := (mem_placesOf_singleton_iff hplace).mp hother
    have hsame := (AuditCalls.restoresCalls_restore text).eq_of_count_eq_zero hcount
    exact ⟨text, htext, by rw [String.toList_inj.mp hsame, htext]⟩
  cleared other hother hne := by
    obtain rfl := (mem_placesOf_singleton_iff hplace).mp hother
    exact absurd ((disabledCalls_of_content? htext).trans hcount) hne
  others _ _ _ := rfl

/-- A file with disabled calls is restored by way of its temporary file. -/
theorem restoresFiles_replace (hplace : tree.locate? path = some place)
    (htext : tree.content? place = some text.toUTF8) (hcount : (restore text).2 ≠ 0)
    (hfree : tree.isDirectory (temporaryPlace place) = false)
    (hne : temporaryPlace place ≠ place) :
    tree.RestoresFiles [path]
      (tree.replace place (temporaryPlace place) (restore text).1.toUTF8) := by
  have hfile := isDirectory_eq_false_of_content? htext
  have hplaces (other : Place) : other ∈ tree.placesOf [path] ↔ other = place :=
    mem_placesOf_singleton_iff hplace
  refine ⟨.replace hfile hfree _, .of_replace hfile hfree _, ?_, ?_, ?_⟩
  · rintro other hother
    obtain rfl := (hplaces other).mp hother
    exact ⟨text, htext, content?_eq_some_iff.mpr (node?_replace_self hfile hfree _)⟩
  · rintro other hother -
    obtain rfl := (hplaces other).mp hother
    exact node?_replace_beside hfree hne _
  · intro other hnot hapart
    have hmem := (hplaces place).mpr rfl
    have hleft : tree.disabledCalls place ≠ 0 := by rwa [disabledCalls_of_content? htext]
    exact node?_replace_of_ne (mt (hplaces other).mpr hnot) (hapart place hmem hleft) _

end FileTree

/-! ### Runs -/

section Runs

open FileTree

variable {tree between after : FileTree} {path : Path} {paths front rest : List Path}
  {text : String} {restorations : List FileRestoration} {error : AuditCallsError}

theorem run_restoreFile_of_none (h : tree.text? path = none) :
    (restoreFile path).run.run tree = (.error (.read path), tree) := by
  rw [restoreFile, FileScript.run_andThen, FileScript.run_readTextOr, ← FileTree.text?, h]
  rfl

theorem exists_run_restoreFile (hread : tree.text? path = some text)
    (hroom : tree.LeavesRoomFor [path]) :
    ∃ after, (restoreFile path).run.run tree = (.ok ⟨path, (restore text).2⟩, after) ∧
      tree.RestoresFiles [path] after := by
  obtain ⟨hslash, place, hplace, htext⟩ := text?_eq_some_iff.mp hread
  have hfile := isDirectory_eq_false_of_content? htext
  rw [restoreFile, FileScript.run_andThen, FileScript.run_readTextOr, ← FileTree.text?, hread]
  dsimp only [Option.elim]
  split_ifs with hcount
  · have hsingle : ∀ temporary ∈ temporaryPath? path, ∀ beside,
        tree.locate? temporary = some beside → tree.isDirectory beside = false := by
      intro temporary htemporary beside hbeside
      exact hroom.free beside (mem_temporariesOf List.mem_cons_self htemporary hbeside)
    obtain ⟨-, -, -, -, -, hmade⟩ := exists_locate?_temporary hplace hfile
    obtain ⟨found, -, hfound, -, -, -, hfree, hne, hrun⟩ :=
      HasRoomFor.exists_run ⟨hslash, ⟨place, hplace, hfile⟩, hsingle⟩ hmade (restore text).1.toUTF8
    cases hplace.symm.trans hfound
    refine ⟨_, ?_, restoresFiles_replace hplace htext hcount.ne' hfree hne⟩
    rw [FileScript.run_andThen, FileScript.run_adapt, hrun]
    rfl
  · exact ⟨tree, rfl, restoresFiles_refl hplace htext (Nat.eq_zero_of_not_pos hcount)⟩

/-- Files that can all be read are all restored. -/
theorem exists_run_restoreFiles (hread : ∀ path ∈ paths, ∃ text, tree.text? path = some text)
    (hroom : tree.LeavesRoomFor paths) :
    ∃ restorations after, (restoreFiles paths).run.run tree = (.ok restorations, after) ∧
      tree.RestoresFiles paths after ∧ restorations.map (·.path) = paths ∧
      totalRestored restorations = ∑ place ∈ tree.placesOf paths, tree.disabledCalls place := by
  induction paths generalizing tree with
  | nil => exact ⟨[], tree, rfl, restoresFiles_nil tree, rfl, rfl⟩
  | cons path rest ih =>
      rw [List.forall_mem_cons] at hread
      obtain ⟨⟨text, htext⟩, hreadRest⟩ := hread
      have hfront : [path] ⊆ path :: rest := List.subset_append_left [path] rest
      have hlater : rest ⊆ path :: rest := List.subset_append_right [path] rest
      obtain ⟨between, hfirst, hrestores⟩ := exists_run_restoreFile htext (hroom.of_subset hfront)
      have hreadBetween : ∀ other ∈ rest, ∃ text, between.text? other = some text := by
        intro other hother
        have hall : other ∈ path :: rest := List.mem_cons_of_mem _ hother
        exact (hrestores.exists_text?_iff hroom hfront hall).mpr (hreadRest other hother)
      obtain ⟨others, after, hothers, hrestoresRest, hpaths, htotal⟩ :=
        ih hreadBetween (hrestores.leavesRoomFor (hroom.of_subset hlater))
      refine ⟨⟨path, (restore text).2⟩ :: others, after, ?_, hrestores.append hrestoresRest hroom,
        congrArg (path :: ·) hpaths, ?_⟩
      · rw [restoreFiles, FileScript.run_andThen, hfirst]
        dsimp only
        rw [FileScript.run_andThen, hothers]
        rfl
      · have hcount : ∑ place ∈ tree.placesOf [path], tree.disabledCalls place =
            (restore text).2 := by
          obtain ⟨-, place, hplace, hcontent⟩ := text?_eq_some_iff.mp htext
          rw [placesOf, List.filterMap_cons_some hplace]
          simp [disabledCalls_of_content? hcontent]
        have hsum := sum_disabledCalls_append hrestores hroom
        rw [hcount, ← htotal] at hsum
        exact hsum.symm

/-- A file that fails ends the run, and the files before it are left as they have become. -/
theorem run_restoreFiles_append_of_error (rest : List Path)
    (hfront : (restoreFiles front).run.run tree = (.ok restorations, between))
    (hfail : (restoreFile path).run.run between = (.error error, after)) :
    (restoreFiles (front ++ path :: rest)).run.run tree = (.error error, after) := by
  induction front generalizing tree restorations with
  | nil =>
      cases hfront
      rw [List.nil_append, restoreFiles, FileScript.run_andThen, hfail]
  | cons first others ih =>
      rw [restoreFiles, FileScript.run_andThen_ok_iff] at hfront
      obtain ⟨restoration, second, hfirst, hfront⟩ := hfront
      rw [FileScript.run_andThen_ok_iff] at hfront
      obtain ⟨later, third, hothers, hdone⟩ := hfront
      cases hdone
      rw [List.cons_append, restoreFiles, FileScript.run_andThen, hfirst]
      dsimp only
      rw [FileScript.run_andThen, ih hothers]

/-- A text with a disabled call. -/
def orderText : String := "// await auditService.createAuditLog(order)"

/-- A tree with the text in a file. -/
def ordersTree : FileTree where
  workingDirectory := []
  nodes := [(["orders.ts"], .file orderText.toUTF8)]

/-- Two paths to the file, and one to a file that is not there. -/
def orderPaths : List Path := [⟨"orders.ts"⟩, ⟨"./orders.ts"⟩, ⟨"gone.ts"⟩]

end Runs

end TableModels
