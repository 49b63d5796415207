import TableModels.Text.LeftmostMatch

/-!
# Texts with and without matches

Many patterns take no notice of what stands in front of a match. A search for such a pattern comes
out empty exactly when the pattern reads nothing at any place of the text, so an empty search says
that there is no match anywhere, also none that a longer search would have passed over.
-/

namespace TableModels.Text.Pattern

variable {α : Type} {pattern : Pattern α}

/-- What stands in front of a text plays no part in what is read at its start. -/
def IgnoresFront (pattern : Pattern α) : Prop :=
  ∀ previous other text, pattern.read previous text = pattern.read other text

theorem IgnoresFront.pieces_eq (h : pattern.IgnoresFront) (previous other : Option Char)
    (text : List Char) : pattern.pieces previous text = pattern.pieces other text := by
  induction text generalizing previous other with
  | nil => rw [pieces, pieces]
  | cons c text ih =>
      cases hread : pattern.read other (c :: text) with
      | none =>
          rw [pieces_of_no_match hread, pieces_of_no_match ((h previous other _).trans hread)]
      | some found =>
          obtain ⟨matched, -, heq⟩ := pattern.splits hread
          rw [heq] at hread ⊢
          rw [pieces_of_match hread, pieces_of_match ((h previous other _).trans hread)]

theorem read_nil (pattern : Pattern α) (previous : Option Char) :
    pattern.read previous [] = none := by
  cases hread : pattern.read previous [] with
  | none => rfl
  | some found =>
      obtain ⟨matched, hne, heq⟩ := pattern.splits hread
      exact absurd (List.append_eq_nil_iff.1 heq.symm).1 hne

/-- A text in which nothing matches is kept, character by character. -/
theorem pieces_of_forall_none {text : List Char}
    (h : ∀ previous rest, rest <:+ text → pattern.read previous rest = none)
    (previous : Option Char) : pattern.pieces previous text = text.map .kept := by
  induction text generalizing previous with
  | nil => rw [pieces, List.map_nil]
  | cons c text ih =>
      rw [pieces_of_no_match (h previous (c :: text) List.suffix_rfl), List.map_cons]
      congr 1
      apply ih
      intro other rest hrest
      exact h other rest (hrest.trans (List.suffix_cons c text))

/-- A search goes from a character that is kept to the next, and from a match to what is behind. -/
@[elab_as_elim]
theorem search_induction {motive : Option Char → List Char → Prop} (pattern : Pattern α)
    (nil : ∀ previous, motive previous [])
    (kept : ∀ previous c text, pattern.read previous (c :: text) = none →
      motive (some c) text → motive previous (c :: text))
    (found : ∀ previous value matched rest,
      pattern.read previous (matched ++ rest) = some (value, rest) →
      motive matched.getLast? rest → motive previous (matched ++ rest))
    (previous : Option Char) (text : List Char) : motive previous text := by
  fun_induction pieces pattern previous text with
  | case1 previous => exact nil previous
  | case2 previous c text hread ih => exact kept previous c text hread ih
  | case3 previous c text value rest hread matched ih =>
      obtain ⟨read, -, htext⟩ := pattern.splits hread
      have hmatched : matched = read := by
        simp only [matched, htext, List.length_append, Nat.add_sub_cancel, List.take_left]
      rw [hmatched] at ih
      rw [htext] at hread ⊢
      exact found previous value read rest hread ih

/-- Behind a match, and wherever there is none, the search goes on. -/
theorem read_eq_none_of_values_eq_nil {previous : Option Char} {text : List Char}
    (hfront : pattern.IgnoresFront)
    (h : (pattern.pieces previous text).filterMap Piece.value? = []) {rest : List Char}
    (hrest : rest <:+ text) (other : Option Char) : pattern.read other rest = none := by
  induction previous, text using search_induction pattern with
  | nil previous =>
      rw [List.suffix_nil.1 hrest]
      exact pattern.read_nil other
  | kept previous c text hread ih =>
      rw [pieces_of_no_match hread] at h
      rcases List.suffix_cons_iff.1 hrest with rfl | hsuffix
      · exact (hfront other previous _).trans hread
      · exact ih h hsuffix
  | found previous value matched later hread ih =>
      rw [pieces_of_match hread] at h
      cases h

/-- A search comes out empty exactly when the pattern reads nothing anywhere. -/
theorem values_eq_nil_iff (hfront : pattern.IgnoresFront) {text : List Char} :
    pattern.values text = [] ↔ ∀ rest, rest <:+ text → pattern.read none rest = none := by
  constructor
  · intro h rest hrest
    exact read_eq_none_of_values_eq_nil hfront h hrest none
  · intro h
    have hnone : ∀ previous rest, rest <:+ text → pattern.read previous rest = none :=
      fun previous rest hrest => (hfront previous none rest).trans (h rest hrest)
    rw [values, pieces_of_forall_none hnone, List.filterMap_map]
    exact List.filterMap_eq_nil_iff.2 fun _ _ => rfl

end TableModels.Text.Pattern
