import Mathlib.Data.List.Basic
import TableModels.Text.Pieces

/-!
# Cutting texts at separators

A text is cut at the first copy of a character, or at every separator. There is one way to cut it
at the first copy, and a text cut at all separators begins with the piece in front of the first.
-/

namespace TableModels.Text

/-! ### The first copy of a character -/

/-- Where a text is cut at the first copy of a character. -/
theorem cut_eq_iff {c : Char} {text before later : List Char} :
    text.takeWhile (· != c) = before ∧ text.dropWhile (· != c) = c :: later ↔
      text = before ++ c :: later ∧ c ∉ before := by
  constructor
  · rintro ⟨rfl, hdrop⟩
    constructor
    · rw [← hdrop, List.takeWhile_append_dropWhile]
    · intro hmem
      have hall := List.all_eq_true.1 (List.all_takeWhile (p := (· != c)) (l := text)) c hmem
      simp at hall
  · rintro ⟨rfl, hnot⟩
    have hbefore : ∀ d ∈ before, (d != c) = true := by
      intro d hd
      apply bne_iff_ne.2
      rintro rfl
      exact hnot hd
    rw [List.takeWhile_append_of_pos hbefore, List.dropWhile_append_of_pos hbefore]
    simp

theorem head_dropWhile_ne {c d : Char} {text later : List Char}
    (h : text.dropWhile (· != c) = d :: later) : d = c := by
  have hhead := List.head_dropWhile_not (p := (· != c)) (l := text) (by simp [h])
  simpa [h] using hhead

/-- A text has one first copy of a character. -/
theorem eq_of_append_cons_eq {c : Char} {before later other behind : List Char}
    (hbefore : c ∉ before) (hother : c ∉ other)
    (h : before ++ c :: later = other ++ c :: behind) : before = other ∧ later = behind := by
  obtain ⟨htake, hdrop⟩ := cut_eq_iff.2 ⟨h, hother⟩
  obtain ⟨htake', hdrop'⟩ :=
    cut_eq_iff.2 ⟨(rfl : before ++ c :: later = before ++ c :: later), hbefore⟩
  exact ⟨htake'.symm.trans htake, (List.cons.inj (hdrop'.symm.trans hdrop)).2⟩

/-! ### All separators -/

theorem split_append {separates : Char → Bool} {c : Char} (h : separates c = true)
    (text rest : List Char) :
    split separates (text ++ c :: rest) = split separates text ++ split separates rest := by
  induction text with
  | nil => simp [split, h]
  | cons first later ih =>
      rw [List.cons_append, split, split, ih]
      split_ifs with hfirst
      · rfl
      · cases hpieces : split separates later with
        | nil => exact absurd hpieces (split_ne_nil separates later)
        | cons piece pieces => rfl

theorem split_of_forall_eq_false {separates : Char → Bool} {text : List Char}
    (h : ∀ c ∈ text, separates c = false) : split separates text = [text] := by
  induction text with
  | nil => rfl
  | cons first later ih =>
      rw [List.forall_mem_cons] at h
      rw [split, ih h.2, if_neg (Bool.eq_false_iff.mp h.1)]

theorem split_of_notMem {c : Char} {text : List Char} (h : c ∉ text) :
    split (· == c) text = [text] := by
  apply split_of_forall_eq_false
  intro d hd
  rw [beq_eq_false_iff_ne]
  rintro rfl
  exact h hd

/-- The first piece of a text ends at its first separator. -/
theorem split_append_of_notMem {c : Char} {text : List Char} (h : c ∉ text) (rest : List Char) :
    split (· == c) (text ++ c :: rest) = text :: split (· == c) rest :=
  calc
    split (· == c) (text ++ c :: rest) = split (· == c) text ++ split (· == c) rest :=
      @split_append (· == c) c (beq_self_eq_true c) text rest
    _ = text :: split (· == c) rest := by rw [split_of_notMem h, List.singleton_append]

end TableModels.Text
