/-! # Leftmost matches

A pattern says what it reads at the start of a text, given the character that stands before it. The
matches of a pattern in a text are found from the left, each search going on behind the last match,
so that matches never overlap. The result cuts the text into characters that are kept and matches
that are found; put together again, the pieces are the text.

## Implementation notes

A pattern carries the proof that a match is never empty, and this is why the cut ends. -/

namespace TableModels.Text

/-- A pattern reads a nonempty match at the start of a text. -/
structure Pattern (α : Type) where
  /-- The value of the match at the start of the text, with the text behind the match. -/
  read : (previous : Option Char) → (text : List Char) → Option (α × List Char)
  splits : ∀ {previous text value rest},
    read previous text = some (value, rest) → ∃ matched, matched ≠ [] ∧ text = matched ++ rest

/-- A piece of a text that has been searched. -/
inductive Piece (α : Type) where
  /-- A character that belongs to no match. -/
  | kept (c : Char)
  /-- A match, with its text. -/
  | found (value : α) (matched : List Char)

namespace Piece

/-- The text of a piece. -/
def text {α : Type} : Piece α → List Char
  | kept c => [c]
  | found _ matched => matched

/-- The value of a piece that is a match. -/
def value? {α : Type} : Piece α → Option α
  | kept _ => none
  | found value _ => some value

end Piece

namespace Pattern

variable {α : Type}

theorem length_lt_of_read {pattern : Pattern α} {previous : Option Char} {text rest : List Char}
    {value : α} (h : pattern.read previous text = some (value, rest)) :
    rest.length < text.length := by
  obtain ⟨matched, hne, rfl⟩ := pattern.splits h
  have hpos := List.length_pos_iff.2 hne
  rw [List.length_append]
  omega

/-- The pieces of a text between and at the leftmost matches of the pattern. -/
def pieces (pattern : Pattern α) (previous : Option Char) : List Char → List (Piece α)
  | [] => []
  | c :: text =>
      match _h : pattern.read previous (c :: text) with
      | none => .kept c :: pattern.pieces (some c) text
      | some (value, rest) =>
          let matched := (c :: text).take ((c :: text).length - rest.length)
          .found value matched :: pattern.pieces matched.getLast? rest
termination_by text => text.length
decreasing_by
  · simp
  · exact length_lt_of_read _h

theorem pieces_of_no_match {pattern : Pattern α} {previous : Option Char} {c : Char}
    {text : List Char} (h : pattern.read previous (c :: text) = none) :
    pattern.pieces previous (c :: text) = .kept c :: pattern.pieces (some c) text := by
  rw [pieces]
  split
  · rfl
  · rename_i hread
    rw [h] at hread
    cases hread

theorem pieces_of_match {pattern : Pattern α} {previous : Option Char} {value : α}
    {matched rest : List Char} (h : pattern.read previous (matched ++ rest) = some (value, rest)) :
    pattern.pieces previous (matched ++ rest) =
      .found value matched :: pattern.pieces matched.getLast? rest := by
  obtain ⟨read, hne, heq⟩ := pattern.splits h
  obtain rfl := List.append_cancel_right heq
  cases matched with
  | nil => exact absurd rfl hne
  | cons c matched =>
      rw [List.cons_append] at h ⊢
      rw [pieces]
      split
      · rename_i hread
        rw [h] at hread
        cases hread
      · rename_i found later hread
        rw [h] at hread
        cases hread
        have htake : (c :: (matched ++ rest)).take ((c :: (matched ++ rest)).length - rest.length) =
            c :: matched := by
          rw [← List.cons_append, List.length_append, Nat.add_sub_cancel]
          exact List.take_left
        simp only [htake]

/-- Nothing is lost: the pieces put together are the text. -/
theorem flatMap_text_pieces (pattern : Pattern α) (previous : Option Char) (text : List Char) :
    (pattern.pieces previous text).flatMap Piece.text = text := by
  fun_induction pieces pattern previous text with
  | case1 => rfl
  | case2 previous c text h ih => simp [Piece.text, ih]
  | case3 previous c text value rest h matched ih =>
      obtain ⟨read, _, heq⟩ := pattern.splits h
      have hmatched : matched = read := by
        simp only [matched, heq, List.length_append]
        simp
      rw [List.flatMap_cons, ih, Piece.text, hmatched]
      exact heq.symm

/-- The values of the leftmost matches, in order. -/
def values (pattern : Pattern α) (text : List Char) : List α :=
  (pattern.pieces none text).filterMap Piece.value?

end Pattern

end TableModels.Text
