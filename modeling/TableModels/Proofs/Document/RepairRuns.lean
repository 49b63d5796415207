import TableModels.Document.Repair
import TableModels.Proofs.Text.Matches
import TableModels.Proofs.Text.Splitting

/-!
# What repair does to a text

Repair goes through passes until one of them finds no stray brace. A pass takes out some braces,
each with the line feed behind it, and every pass that finds one shortens the text. So the passes
come to an end, and at the end there is no stray brace anywhere.

## Implementation notes

The removals of several passes are removals from the first text: what a pass leaves in the place of
a brace begins with the space of a mapping line, so no later pass takes a brace from in front of
that place together with a line feed from behind it. `RemovesBraces` remembers this space.
-/

namespace TableModels.Document

open Text (after? cut_eq_iff head_dropWhile_ne)

/-- The beginning of a line that maps a table. -/
def mappingStart : List Char :=
  "  @@map(\"".toList

/-- The mapping line of a table, with the brace that closes its model behind it. -/
def mappingEnd (table : List Char) : List Char :=
  mappingStart ++ (table ++ ['"', ')', '\n', '\x7d'])

/-- A stray brace in front of the mapping line of a table. -/
def strayBraceText (table : List Char) : List Char :=
  '\x7d' :: '\n' :: mappingEnd table

/-- Somewhere in the text a stray brace stands before the mapping of some table. -/
def HoldsStrayBrace (text : List Char) : Prop :=
  ∃ before table later, table ≠ [] ∧ '"' ∉ table ∧
    text = before ++ (strayBraceText table ++ later)

/-- The second text is left of the first when as many braces have been removed from it, each with
the line feed behind it and in front of a space that is left. -/
inductive RemovesBraces : List Char → List Char → Nat → Prop
  | nil : RemovesBraces [] [] 0
  | keep (c : Char) {text left : List Char} {count : Nat} (h : RemovesBraces text left count) :
      RemovesBraces (c :: text) (c :: left) count
  | remove {text left : List Char} {count : Nat} (hspace : left.head? = some ' ')
      (h : RemovesBraces text left count) :
      RemovesBraces ('\x7d' :: '\n' :: text) left (count + 1)

/-- The number of passes that find stray braces in a text before one finds none, with the text that
they leave and the number of the braces they have found. -/
inductive RepairRun : List Char → Nat → List Char → Nat → Prop
  | stop {text : List Char} (h : (repairPass text).2 = 0) : RepairRun text 0 text 0
  | pass {text left : List Char} {passes count : Nat} (h : (repairPass text).2 ≠ 0)
      (hrest : RepairRun (repairPass text).1 passes left count) :
      RepairRun text (passes + 1) left ((repairPass text).2 + count)

/-! ### Reading a stray brace -/

theorem mappedTable?_eq_some_iff {text table later : List Char} :
    mappedTable? text = some (table, later) ↔
      table ≠ [] ∧ '"' ∉ table ∧ text = table ++ '"' :: later := by
  constructor
  · intro h
    have htext := mappedTable?_splits h
    unfold mappedTable? at h
    split at h
    · rename_i first rest c after htake hdrop
      cases h
      obtain rfl := head_dropWhile_ne hdrop
      exact ⟨List.cons_ne_nil _ _, (cut_eq_iff.1 ⟨htake, hdrop⟩).2, htext⟩
    · cases h
  · rintro ⟨hne, hquote, rfl⟩
    obtain ⟨htake, hdrop⟩ :=
      cut_eq_iff.2 ⟨(rfl : table ++ '"' :: later = table ++ '"' :: later), hquote⟩
    obtain ⟨first, rest, rfl⟩ := List.exists_cons_of_ne_nil hne
    simp only [mappedTable?, htake, hdrop]

theorem after?_opening_eq_some_iff {text later : List Char} :
    after? "\x7d\n  @@map(\"".toList text = some later ↔
      text = '\x7d' :: '\n' :: (mappingStart ++ later) :=
  Text.after?_eq_some_iff

theorem after?_closing_eq_some_iff {text later : List Char} :
    after? "\")\n\x7d".toList ('"' :: text) = some later ↔
      text = [')', '\n', '\x7d'] ++ later := by
  have hclosing : "\")\n\x7d".toList = '"' :: [')', '\n', '\x7d'] := by decide
  rw [Text.after?_eq_some_iff, hclosing, List.cons_append, List.cons.injEq]
  exact and_iff_right rfl

/-- A match is a stray brace in front of the mapping line of a table. -/
theorem read_strayBrace_eq_some_iff {previous : Option Char} {text table later : List Char} :
    strayBrace.read previous text = some (table, later) ↔
      table ≠ [] ∧ '"' ∉ table ∧ text = strayBraceText table ++ later := by
  change readStrayBrace previous text = some (table, later) ↔ _
  constructor
  · intro h
    unfold readStrayBrace at h
    split at h
    · cases h
    · rename_i opened hopened
      split at h
      · cases h
      · rename_i name closed hname
        obtain ⟨rest, hclosed, heq⟩ := Option.map_eq_some_iff.1 h
        cases heq
        obtain ⟨hne, hquote, rfl⟩ := mappedTable?_eq_some_iff.1 hname
        refine ⟨hne, hquote, ?_⟩
        rw [after?_opening_eq_some_iff.1 hopened, after?_closing_eq_some_iff.1 hclosed]
        simp [strayBraceText, mappingEnd]
  · rintro ⟨hne, hquote, rfl⟩
    let closed := [')', '\n', '\x7d'] ++ later
    have hopened : after? "\x7d\n  @@map(\"".toList (strayBraceText table ++ later) =
        some (table ++ '"' :: closed) := by
      rw [after?_opening_eq_some_iff]
      simp [strayBraceText, mappingEnd, closed]
    have hname : mappedTable? (table ++ '"' :: closed) = some (table, closed) :=
      mappedTable?_eq_some_iff.2 ⟨hne, hquote, rfl⟩
    have hclosed : after? "\")\n\x7d".toList ('"' :: closed) = some later :=
      after?_closing_eq_some_iff.2 rfl
    simp only [readStrayBrace, hopened, hname, hclosed, Option.map_some]

theorem head?_mappingEnd_append (table later : List Char) :
    (mappingEnd table ++ later).head? = some ' ' := by
  have hstart : mappingStart.head? = some ' ' := by decide
  rw [mappingEnd, List.append_assoc, List.head?_append, hstart]
  rfl

theorem ignoresFront_strayBrace : strayBrace.IgnoresFront :=
  fun _ _ _ => rfl

/-- A pass finds nothing exactly when there is nothing to find. -/
theorem repairPass_eq_zero_iff {text : List Char} :
    (repairPass text).2 = 0 ↔ ¬ HoldsStrayBrace text := by
  have hvalues : (repairPass text).2 = 0 ↔ strayBrace.values text = [] := List.length_eq_zero_iff
  rw [hvalues, Text.Pattern.values_eq_nil_iff ignoresFront_strayBrace]
  constructor
  · rintro hnone ⟨before, table, later, hne, hquote, rfl⟩
    have hread : strayBrace.read none (strayBraceText table ++ later) = some (table, later) :=
      read_strayBrace_eq_some_iff.2 ⟨hne, hquote, rfl⟩
    have hsuffix := hnone _ (List.suffix_append before (strayBraceText table ++ later))
    exact Option.some_ne_none _ (hread.symm.trans hsuffix)
  · rintro hnot rest ⟨before, rfl⟩
    apply Option.eq_none_iff_forall_ne_some.2
    rintro ⟨table, later⟩ hread
    obtain ⟨hne, hquote, rfl⟩ := read_strayBrace_eq_some_iff.1 hread
    exact hnot ⟨before, table, later, hne, hquote, rfl⟩

/-! ### Removals -/

namespace RemovesBraces

variable {text middle left : List Char} {count more : Nat}

theorem append_left (h : RemovesBraces text left count) (kept : List Char) :
    RemovesBraces (kept ++ text) (kept ++ left) count := by
  induction kept with
  | nil => exact h
  | cons c kept ih => exact .keep c ih

theorem refl (text : List Char) : RemovesBraces text text 0 := by
  simpa using RemovesBraces.nil.append_left text

theorem head?_left (h : RemovesBraces text left count) (hspace : text.head? = some ' ') :
    left.head? = some ' ' := by
  cases h with
  | nil => exact hspace
  | keep c h => exact hspace
  | remove _ _ => cases hspace

/-- A line feed that is left was kept, since no removal leaves one in its place. -/
theorem of_feed (h : RemovesBraces text ('\n' :: left) count) :
    ∃ behind, text = '\n' :: behind ∧ RemovesBraces behind left count := by
  cases h with
  | keep _ hbehind => exact ⟨_, rfl, hbehind⟩
  | remove hspace _ => cases hspace

/-- What is removed from what was left is removed from the first text. -/
theorem trans (h : RemovesBraces text middle count) (hnext : RemovesBraces middle left more) :
    RemovesBraces text left (count + more) := by
  induction h generalizing left more with
  | nil => rwa [Nat.zero_add]
  | keep c h ih =>
      cases hnext with
      | keep _ hrest => exact .keep c (ih hrest)
      | remove hspace hrest =>
          obtain ⟨behind, rfl, hbehind⟩ := (ih (.keep '\n' hrest)).of_feed
          exact .remove hspace hbehind
  | remove hspace h ih =>
      rw [Nat.add_right_comm]
      exact .remove (hnext.head?_left hspace) (ih hnext)

/-- The text is cut where something is removed. -/
theorem exists_gaps (h : RemovesBraces text left count) :
    ∃ (first : List Char) (gaps : List (List Char)),
      text = first ++ gaps.flatMap (fun gap => '\x7d' :: '\n' :: gap) ∧
        left = first ++ gaps.flatten ∧ gaps.length = count := by
  induction h with
  | nil => exact ⟨[], [], rfl, rfl, rfl⟩
  | keep c h ih =>
      obtain ⟨first, gaps, rfl, rfl, rfl⟩ := ih
      exact ⟨c :: first, gaps, rfl, rfl, rfl⟩
  | remove hspace h ih =>
      obtain ⟨first, gaps, rfl, rfl, rfl⟩ := ih
      exact ⟨[], first :: gaps, rfl, rfl, rfl⟩

theorem length_eq (h : RemovesBraces text left count) : text.length = left.length + 2 * count := by
  induction h with
  | nil => rfl
  | keep c h ih =>
      rw [List.length_cons, List.length_cons, ih]
      omega
  | remove hspace h ih =>
      rw [List.length_cons, List.length_cons, ih]
      omega

/-- Both characters of a removal are single bytes. -/
theorem utf8ByteSize_eq (h : RemovesBraces text left count) :
    (String.ofList text).utf8ByteSize = (String.ofList left).utf8ByteSize + 2 * count := by
  induction h with
  | nil => rfl
  | keep c h ih =>
      rw [String.ofList_cons, String.ofList_cons, String.utf8ByteSize_append,
        String.utf8ByteSize_append, ih]
      omega
  | remove hspace h ih =>
      have hbrace : Char.utf8Size '\x7d' = 1 := by decide
      have hfeed : Char.utf8Size '\n' = 1 := by decide
      rw [String.ofList_cons, String.ofList_cons, String.utf8ByteSize_append,
        String.utf8ByteSize_append, String.utf8ByteSize_singleton, String.utf8ByteSize_singleton,
        hbrace, hfeed, ih]
      omega

end RemovesBraces

/-! ### Passes -/

theorem removesBraces_pieces (previous : Option Char) (text : List Char) :
    RemovesBraces text ((strayBrace.pieces previous text).flatMap withoutBrace)
      ((strayBrace.pieces previous text).filterMap Text.Piece.value?).length := by
  induction previous, text using Text.Pattern.search_induction strayBrace with
  | nil previous =>
      rw [Text.Pattern.pieces]
      exact .nil
  | kept previous c text hread ih =>
      rw [Text.Pattern.pieces_of_no_match hread]
      exact .keep c ih
  | found previous table matched rest hread ih =>
      rw [Text.Pattern.pieces_of_match hread, List.flatMap_cons]
      obtain ⟨-, -, htext⟩ := read_strayBrace_eq_some_iff.1 hread
      obtain rfl := List.append_cancel_right htext
      exact .remove (head?_mappingEnd_append table _) (ih.append_left (mappingEnd table))

/-- A pass removes as many braces as it counts. -/
theorem removesBraces_repairPass (text : List Char) :
    RemovesBraces text (repairPass text).1 (repairPass text).2 :=
  removesBraces_pieces none text

theorem repairText_of_repairPass {text : List Char} (h : (repairPass text).2 = 0) :
    repairText text = (text, 0) := by
  rw [repairText]
  split
  · rfl
  · rename_i heq
    rw [heq] at h
    cases h

namespace RepairRun

variable {text left : List Char} {passes count : Nat}

theorem removesBraces (h : RepairRun text passes left count) : RemovesBraces text left count := by
  induction h with
  | @stop text h => exact .refl text
  | @pass text left passes count h hrest ih => exact (removesBraces_repairPass text).trans ih

theorem repairPass_left (h : RepairRun text passes left count) : (repairPass left).2 = 0 := by
  induction h with
  | stop h => exact h
  | pass _ _ ih => exact ih

/-- Every pass but the last finds a brace. -/
theorem passes_le (h : RepairRun text passes left count) : passes ≤ count := by
  induction h with
  | stop => exact Nat.le_refl 0
  | pass h _ ih => omega

end RepairRun

/-- Every text has been through all of its passes when it is repaired. -/
theorem exists_repairRun (text : List Char) :
    ∃ passes, RepairRun text passes (repairText text).1 (repairText text).2 := by
  fun_induction repairText text with
  | case1 text other hpass => exact ⟨0, .stop (by rw [hpass])⟩
  | case2 text shorter count hpass repaired ih =>
      obtain ⟨passes, hrest⟩ := ih
      have hfirst : (repairPass text).1 = shorter := by rw [hpass]
      have hcount : (repairPass text).2 = count + 1 := by rw [hpass]
      refine ⟨passes + 1, ?_⟩
      rw [← hcount]
      exact .pass (by omega) (hfirst ▸ hrest)

/-- Repair comes to an end after passes that each find a stray brace, and leaves none. What it
leaves is the text without as many braces as it counts, each taken out with the line feed behind it,
and it has nothing to do on what it left. -/
theorem repair_removes_all_stray_braces (text : String) :
    (∃ passes, passes ≤ (repair text).repaired ∧
      RepairRun text.toList passes (repair text).text.toList (repair text).repaired) ∧
    ¬ HoldsStrayBrace (repair text).text.toList ∧
    (∃ (first : List Char) (gaps : List (List Char)),
      text.toList = first ++ gaps.flatMap (fun gap => '\x7d' :: '\n' :: gap) ∧
        (repair text).text.toList = first ++ gaps.flatten ∧
        gaps.length = (repair text).repaired) ∧
    text.length = (repair text).text.length + 2 * (repair text).repaired ∧
    text.utf8ByteSize = (repair text).text.utf8ByteSize + 2 * (repair text).repaired ∧
    repair (repair text).text = ⟨(repair text).text, 0⟩ := by
  obtain ⟨passes, hrun⟩ := exists_repairRun text.toList
  have htext : (repair text).text.toList = (repairText text.toList).1 := String.toList_ofList
  have hremoves := hrun.removesBraces
  rw [← htext] at hrun hremoves
  refine ⟨⟨passes, hrun.passes_le, hrun⟩, repairPass_eq_zero_iff.1 hrun.repairPass_left,
    hremoves.exists_gaps, hremoves.length_eq, ?_, ?_⟩
  · have hbytes := hremoves.utf8ByteSize_eq
    rwa [String.ofList_toList, String.ofList_toList] at hbytes
  · rw [repair, repairText_of_repairPass hrun.repairPass_left, String.ofList_toList]

end TableModels.Document
