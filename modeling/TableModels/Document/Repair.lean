import TableModels.Text.LeftmostMatch
import TableModels.Text.Pieces

/-! # Repairing documents

A document may hold a stray closing brace on the line before the table mapping of a model. Repair
removes such a brace, with its line feed, where the mapping line is followed by a closing brace, and
goes on until there is none left. Each removal shortens the text by two characters, so repair ends.

## Implementation notes

One pass removes the braces of all leftmost matches, which do not overlap. Since the closing brace
of one match may be the stray brace of the next, a pass can leave work for another pass. -/

namespace TableModels.Document

open Text (after?)

/-- The table name between the quotes of a mapping line, and the text behind its closing quote. -/
def mappedTable? (text : List Char) : Option (List Char × List Char) :=
  match text.takeWhile (· != '"'), text.dropWhile (· != '"') with
  | first :: name, _ :: later => some (first :: name, later)
  | _, _ => none

/-- A stray brace with the mapping line and the closing brace behind it, at the start of a text. -/
def readStrayBrace (_previous : Option Char) (text : List Char) :
    Option (List Char × List Char) :=
  match after? "\x7d\n  @@map(\"".toList text with
  | none => none
  | some opened =>
      match mappedTable? opened with
      | none => none
      | some (name, closed) =>
          (after? "\")\n\x7d".toList ('"' :: closed)).map fun later => (name, later)

theorem mappedTable?_splits {text name later : List Char}
    (h : mappedTable? text = some (name, later)) : text = name ++ '"' :: later := by
  unfold mappedTable? at h
  split at h
  · rename_i first rest c after htake hdrop
    simp only [Option.some.injEq, Prod.mk.injEq] at h
    obtain ⟨rfl, rfl⟩ := h
    have hsplit := List.takeWhile_append_dropWhile (p := (· != '"')) (l := text)
    have hhead := List.head_dropWhile_not (p := (· != '"')) (l := text) (by simp [hdrop])
    simp only [hdrop, List.head_cons, bne_eq_false_iff_eq] at hhead
    rw [← hsplit, htake, hdrop, hhead]
  · cases h

theorem readStrayBrace_splits {previous : Option Char} {text name later : List Char}
    (h : readStrayBrace previous text = some (name, later)) :
    ∃ matched, matched ≠ [] ∧ text = matched ++ later := by
  unfold readStrayBrace at h
  split at h
  · cases h
  · rename_i opened hopen
    split at h
    · cases h
    · rename_i table closed htable
      obtain ⟨rest, hclose, heq⟩ := Option.map_eq_some_iff.1 h
      simp only [Prod.mk.injEq] at heq
      obtain ⟨rfl, rfl⟩ := heq
      have h1 := Text.after?_eq_some_iff.1 hopen
      have h2 := mappedTable?_splits htable
      have h3 := Text.after?_eq_some_iff.1 hclose
      refine ⟨"\x7d\n  @@map(\"".toList ++ (table ++ "\")\n\x7d".toList), by simp, ?_⟩
      rw [h1, h2, h3]
      simp only [List.append_assoc]

/-- The pattern of stray braces. -/
def strayBrace : Text.Pattern (List Char) :=
  ⟨readStrayBrace, readStrayBrace_splits⟩

/-- The text that a piece leaves: a match loses its stray brace and the line feed behind it. -/
def withoutBrace : Text.Piece (List Char) → List Char
  | .kept c => [c]
  | .found _ matched => matched.drop 2

/-- One pass: the text without the stray braces found from the left, and their number. -/
def repairPass (text : List Char) : List Char × Nat :=
  let pieces := strayBrace.pieces none text
  (pieces.flatMap withoutBrace, (pieces.filterMap Text.Piece.value?).length)

theorem length_withoutBrace_pieces (previous : Option Char) (text : List Char) :
    ((strayBrace.pieces previous text).flatMap withoutBrace).length
      + 2 * ((strayBrace.pieces previous text).filterMap Text.Piece.value?).length
      = text.length := by
  fun_induction Text.Pattern.pieces strayBrace previous text with
  | case1 => rfl
  | case2 previous c text h ih =>
      simp only [List.flatMap_cons, withoutBrace, List.filterMap_cons, Text.Piece.value?,
        List.length_append, List.length_cons, List.length_nil]
      omega
  | case3 previous c text name rest h matched ih =>
      obtain ⟨read, hne, heq⟩ := strayBrace.splits h
      have hopen : 2 ≤ read.length := by
        have hread : readStrayBrace previous (c :: text) = some (name, rest) := h
        unfold readStrayBrace at hread
        split at hread
        · cases hread
        · rename_i opened hopened
          split at hread
          · cases hread
          · rename_i table closed htable
            obtain ⟨after, hclose, hpair⟩ := Option.map_eq_some_iff.1 hread
            simp only [Prod.mk.injEq] at hpair
            obtain ⟨rfl, rfl⟩ := hpair
            have h1 := Text.after?_eq_some_iff.1 hopened
            have h2 := mappedTable?_splits htable
            have h3 := Text.after?_eq_some_iff.1 hclose
            have hlength := congrArg List.length heq
            rw [h1, h2, h3] at hlength
            simp only [List.length_append] at hlength
            have hbrace : "\x7d\n  @@map(\"".toList.length = 11 := by decide
            omega
      have hmatched : matched.length = read.length := by
        simp only [matched, heq, List.length_append, List.length_take]
        omega
      have hlength := congrArg List.length heq
      simp only [List.flatMap_cons, withoutBrace, List.filterMap_cons, Text.Piece.value?,
        List.length_append, List.length_cons, List.length_drop] at hlength ⊢
      omega

/-- A pass shortens the text by two characters for each brace that it removes. -/
theorem length_repairPass (text : List Char) :
    (repairPass text).1.length + 2 * (repairPass text).2 = text.length :=
  length_withoutBrace_pieces none text

/-- The text without stray braces, and the number of braces removed. -/
def repairText (text : List Char) : List Char × Nat :=
  match _h : repairPass text with
  | (_, 0) => (text, 0)
  | (shorter, count + 1) =>
      let repaired := repairText shorter
      (repaired.1, count + 1 + repaired.2)
termination_by text.length
decreasing_by
  have hlength := length_repairPass text
  rw [_h] at hlength
  simp only at hlength
  omega

/-- A repaired document with the number of model blocks that were repaired. -/
structure Repair where
  text : String
  repaired : Nat
  deriving DecidableEq

/-- Remove the stray braces of a document. -/
def repair (text : String) : Repair :=
  let result := repairText text.toList
  ⟨String.ofList result.1, result.2⟩

end TableModels.Document
