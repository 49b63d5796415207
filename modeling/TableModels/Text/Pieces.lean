import TableModels.Unicode.Whitespace

/-! # Pieces of a text

Splitting a text at separators, trimming its ends, taking its first line, and looking for one text
inside another. A split loses nothing but the separators: no piece contains one, and there is one
piece more than there are separators.

## Implementation notes

Everything is stated on lists of characters; the functions on `String` only wrap them. -/

namespace TableModels.Text

/-- The pieces of a text between the characters that separate. -/
def split (separates : Char → Bool) : List Char → List (List Char)
  | [] => [[]]
  | c :: rest =>
      if separates c then
        [] :: split separates rest
      else
        match split separates rest with
        | [] => [[c]]
        | piece :: pieces => (c :: piece) :: pieces

theorem split_ne_nil (separates : Char → Bool) (text : List Char) : split separates text ≠ [] := by
  cases text with
  | nil => simp [split]
  | cons c rest =>
      simp only [split]
      split
      · simp
      · split <;> simp

/-- No piece contains a separator. -/
theorem separates_eq_false_of_mem_split {separates : Char → Bool} {text piece : List Char}
    (h : piece ∈ split separates text) : ∀ c ∈ piece, separates c = false := by
  induction text generalizing piece with
  | nil => simp_all [split]
  | cons c rest ih =>
      simp only [split] at h
      split at h
      · rcases List.mem_cons.1 h with rfl | h
        · simp
        · exact ih h
      · rename_i hc
        split at h
        · rename_i hnil
          exact absurd hnil (split_ne_nil separates rest)
        · rename_i first others heq
          rcases List.mem_cons.1 h with rfl | h
          · intro d hd
            rcases List.mem_cons.1 hd with rfl | hd
            · simpa using hc
            · exact ih (by simp [heq]) d hd
          · exact ih (by simp [heq, h])

theorem length_split (separates : Char → Bool) (text : List Char) :
    (split separates text).length = text.countP separates + 1 := by
  induction text with
  | nil => simp [split]
  | cons c rest ih =>
      simp only [split]
      split
      · rename_i hc
        simp [hc, ih]
      · rename_i hc
        split
        · rename_i hnil
          exact absurd hnil (split_ne_nil separates rest)
        · rename_i first others heq
          rw [heq] at ih
          simpa [hc] using ih

/-- The text without the characters at both ends that satisfy the predicate. -/
def trimBy (drops : Char → Bool) (text : List Char) : List Char :=
  (((text.dropWhile drops).reverse).dropWhile drops).reverse

/-- The text without the white space at both ends. -/
def trim (text : List Char) : List Char :=
  trimBy Unicode.isWhitespace text

/-- The string without the white space at both ends. -/
def trimmed (text : String) : String :=
  String.ofList (trim text.toList)

/-- The text up to its first line feed. -/
def firstLine (text : List Char) : List Char :=
  text.takeWhile (· != '\n')

theorem newline_notMem_firstLine (text : List Char) : '\n' ∉ firstLine text := by
  intro h
  have hall : (firstLine text).all (· != '\n') = true := List.all_takeWhile
  simpa using List.all_eq_true.1 hall _ h

/-- The text that follows a leading copy of `start`, if the text begins with one. -/
def after? : (start text : List Char) → Option (List Char)
  | [], text => some text
  | _ :: _, [] => none
  | c :: start, d :: text => if c = d then after? start text else none

theorem after?_eq_some_iff {start text rest : List Char} :
    after? start text = some rest ↔ text = start ++ rest := by
  induction start generalizing text with
  | nil => simp [after?, eq_comm]
  | cons c start ih =>
      cases text with
      | nil => simp [after?]
      | cons d text =>
          by_cases h : c = d
          · simp [after?, h, ih]
          · simp [after?, h, Ne.symm h]

/-- The text `needle` occurs somewhere in the text. -/
def occursIn (needle : List Char) : List Char → Bool
  | [] => needle.isEmpty
  | c :: rest => (after? needle (c :: rest)).isSome || occursIn needle rest

theorem occursIn_iff {needle text : List Char} :
    occursIn needle text = true ↔ ∃ before later, text = before ++ needle ++ later := by
  induction text with
  | nil =>
      simp only [occursIn, List.isEmpty_iff]
      constructor
      · rintro rfl
        exact ⟨[], [], rfl⟩
      · rintro ⟨before, later, h⟩
        have : (before ++ needle ++ later).length = 0 := by rw [← h]; rfl
        simp only [List.length_append] at this
        exact List.eq_nil_of_length_eq_zero (by omega)
  | cons c rest ih =>
      simp only [occursIn, Bool.or_eq_true, ih, Option.isSome_iff_exists, after?_eq_some_iff]
      constructor
      · rintro (⟨later, h⟩ | ⟨before, later, rfl⟩)
        · exact ⟨[], later, by simpa using h⟩
        · exact ⟨c :: before, later, rfl⟩
      · rintro ⟨before, later, h⟩
        cases before with
        | nil => exact Or.inl ⟨later, by simpa using h⟩
        | cons d before =>
            simp only [List.cons_append, List.cons.injEq] at h
            exact Or.inr ⟨before, later, h.2⟩

/-- The string `needle` occurs somewhere in the string. -/
def includes (text needle : String) : Bool :=
  occursIn needle.toList text.toList

end TableModels.Text
