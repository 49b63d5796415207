import TableModels.Unicode.Numeric
import TableModels.Unicode.Uppercase
import TableModels.Unicode.Whitespace
import TableModels.Unicode.WordCharacter

/-!
# Classes of characters

Classes given by ranges of code points are told apart by their ranges. Within ASCII they are told
apart character by character.
-/

namespace TableModels.Unicode

/-- Ranges of two lists that do not meet have no code point in common. -/
theorem CodeRange.anyContains_eq_false_of_disjoint {first second : List CodeRange}
    (h : ∀ r ∈ first, ∀ s ∈ second, r.last < s.first ∨ s.last < r.first) {code : Nat}
    (hcode : anyContains first code = true) : anyContains second code = false := by
  obtain ⟨r, hr, hlow, hhigh⟩ := anyContains_iff.1 hcode
  apply Bool.eq_false_iff.2
  intro hother
  obtain ⟨s, hs, hlow', hhigh'⟩ := anyContains_iff.1 hother
  rcases h r hr s hs with hlt | hlt <;> omega

/-- A property of the characters of ASCII is checked code point by code point. -/
@[elab_as_elim]
theorem ascii_cases {motive : Char → Prop} (c : Char) (hc : c.toNat < 0x80)
    (h : ∀ code < 0x80, motive (Char.ofNat code)) : motive c := by
  have hchar := h c.toNat hc
  rwa [Char.ofNat_toNat] at hchar

/-! ### White space -/

/-- No white space is a letter or a digit. -/
theorem isAlphanumeric_of_isWhitespace {c : Char} (h : isWhitespace c = true) :
    isAlphanumeric c = false := by
  unfold isAlphanumeric isAlphabetic isNumeric
  split
  · rename_i hascii
    have hclass : isWhitespace c = true → c.isAlpha = false ∧ c.isDigit = false :=
      ascii_cases c hascii (by decide +kernel)
    obtain ⟨halpha, hdigit⟩ := hclass h
    rw [halpha, hdigit]
    rfl
  · have halphabetic : CodeRange.anyContains alphabeticRanges c.toNat = false :=
      CodeRange.anyContains_eq_false_of_disjoint (by decide +kernel) h
    have hnumeric : CodeRange.anyContains numericRanges c.toNat = false :=
      CodeRange.anyContains_eq_false_of_disjoint (by decide +kernel) h
    rw [halphabetic, hnumeric]
    rfl

/-! ### Marks and upper-case forms -/

/-- A character of ASCII that is no letter. -/
def IsMark (c : Char) : Prop :=
  c.toNat < 0x80 ∧ c.isAlpha = false

instance (c : Char) : Decidable (IsMark c) :=
  inferInstanceAs (Decidable (c.toNat < 0x80 ∧ c.isAlpha = false))

theorem isMark_of_isDigit {c : Char} (h : c.isDigit = true) : IsMark c := by
  have hascii : c.toNat < 0x80 := by
    rw [Char.isDigit, Bool.and_eq_true, decide_eq_true_iff, decide_eq_true_iff] at h
    have hle : c.toNat ≤ '9'.toNat := h.2
    exact Nat.lt_of_le_of_lt hle (by decide)
  refine ⟨hascii, ?_⟩
  have hclass : c.isDigit = true → c.isAlpha = false := ascii_cases c hascii (by decide)
  exact hclass h

theorem isWhitespace_of_isDigit {c : Char} (h : c.isDigit = true) : isWhitespace c = false := by
  have hclass : c.isDigit = true → isWhitespace c = false :=
    ascii_cases c (isMark_of_isDigit h).1 (by decide +kernel)
  exact hclass h

/-- The upper-case letters of ASCII and all characters outside of ASCII. -/
def imageRanges : List CodeRange :=
  [⟨0x41, 0x5A⟩, ⟨0x80, 0xD7FF⟩, ⟨0xE000, 0x10FFFF⟩]

/-- No white space is a part of a word. -/
theorem isWordCharacter_of_isWhitespace {c : Char} (h : isWhitespace c = true) :
    isWordCharacter c = false := by
  have halphanumeric := isAlphanumeric_of_isWhitespace h
  rw [isAlphanumeric, Bool.or_eq_false_iff] at halphanumeric
  have hdigit : c.isDigit = false := by
    apply Bool.eq_false_iff.2
    intro hc
    rw [isWhitespace_of_isDigit hc] at h
    cases h
  have hunderscore : (c == '_') = false := by
    rw [beq_eq_false_iff_ne]
    rintro rfl
    exact absurd h (by decide)
  have hother : CodeRange.anyContains nonalphabeticWordRanges c.toNat = false :=
    CodeRange.anyContains_eq_false_of_disjoint (by decide +kernel) h
  rw [isWordCharacter, halphanumeric.1, hdigit, hunderscore, hother]
  rfl

theorem toNat_ofNat_of_contains {code : Nat}
    (h : CodeRange.anyContains imageRanges code = true) : (Char.ofNat code).toNat = code := by
  simp only [CodeRange.anyContains_iff, imageRanges, List.mem_cons, List.not_mem_nil, or_false,
    exists_eq_or_imp, exists_eq_left] at h
  have hvalid : code.isValidChar := by
    unfold Nat.isValidChar
    omega
  rw [Char.ofNat, dif_pos hvalid]
  rfl

theorem ofNat_ne_of_contains {code : Nat} (h : CodeRange.anyContains imageRanges code = true)
    {mark : Char} (hmark : IsMark mark) : Char.ofNat code ≠ mark := by
  have hascii : ∀ code < 0x80, CodeRange.anyContains imageRanges code = true →
      (Char.ofNat code).isAlpha = true := by
    decide
  rintro rfl
  obtain ⟨hsmall, halpha⟩ := hmark
  rw [toNat_ofNat_of_contains h] at hsmall
  rw [hascii code hsmall h] at halpha
  cases halpha

theorem toUpper_eq_of_isMark {c : Char} (hascii : c.toNat < 0x80) (h : IsMark c.toUpper) :
    c.toUpper = c := by
  have hmark : IsMark c.toUpper → c.toUpper = c := ascii_cases c hascii (by decide)
  exact hmark h

theorem contains_of_expansion {code : Nat} {codes : List Nat}
    (h : (code, codes) ∈ uppercaseExpansions) {image : Nat} (himage : image ∈ codes) :
    CodeRange.anyContains imageRanges image = true := by
  have hall : ∀ entry ∈ uppercaseExpansions, ∀ image ∈ entry.2,
      CodeRange.anyContains imageRanges image = true := by
    decide
  exact hall _ h image himage

theorem UppercaseRun.image?_eq_some_iff {run : UppercaseRun} {code image : Nat} :
    run.image? code = some image ↔ (run.first ≤ code ∧ code ≤ run.last ∧
      (code - run.first) % run.step = 0) ∧ run.image + (code - run.first) = image := by
  simp [image?]

theorem UppercaseRun.bounds_of_image? {run : UppercaseRun} {code image : Nat}
    (h : run.image? code = some image) :
    run.image ≤ image ∧ image ≤ run.image + (run.last - run.first) := by
  obtain ⟨⟨hfirst, hlast, -⟩, rfl⟩ := image?_eq_some_iff.1 h
  omega

theorem contains_of_run {run : UppercaseRun} (hrun : run ∈ uppercaseRuns) {code image : Nat}
    (h : run.image? code = some image) : CodeRange.anyContains imageRanges image = true := by
  have hall : ∀ run ∈ uppercaseRuns, ∃ range ∈ imageRanges,
      range.first ≤ run.image ∧ run.image + (run.last - run.first) ≤ range.last := by
    decide +kernel
  obtain ⟨range, hrange, hfirst, hlast⟩ := hall run hrun
  obtain ⟨hlow, hhigh⟩ := UppercaseRun.bounds_of_image? h
  apply CodeRange.anyContains_iff.2
  exact ⟨range, hrange, Nat.le_trans hfirst hlow, Nat.le_trans hhigh hlast⟩

/-- What the upper-case form of a character can be. -/
inductive IsUppercaseForm (c : Char) : List Char → Prop
  | ascii (hascii : c.toNat < 0x80) : IsUppercaseForm c [c.toUpper]
  | expanded {codes : List Nat} (hentry : (c.toNat, codes) ∈ uppercaseExpansions) :
      IsUppercaseForm c (codes.map Char.ofNat)
  | shifted {run : UppercaseRun} {image : Nat} (hrun : run ∈ uppercaseRuns)
      (himage : run.image? c.toNat = some image) : IsUppercaseForm c [Char.ofNat image]
  | unchanged : IsUppercaseForm c [c]

theorem isUppercaseForm_uppercase (c : Char) : IsUppercaseForm c (uppercase c) := by
  unfold uppercase
  split
  · rename_i hascii
    exact .ascii hascii
  · split
    · rename_i codes hlookup
      obtain ⟨before, behind, heq, -⟩ := List.lookup_eq_some_iff.1 hlookup
      apply IsUppercaseForm.expanded
      rw [heq]
      exact List.mem_append_right _ List.mem_cons_self
    · cases hfind : uppercaseRuns.findSome? (·.image? c.toNat) with
      | none =>
          rw [Option.getD_none, Char.ofNat_toNat]
          exact .unchanged
      | some image =>
          obtain ⟨run, hrun, himage⟩ := List.exists_of_findSome?_eq_some hfind
          exact .shifted hrun himage

/-- Only the mark itself has the mark in its upper-case form. -/
theorem eq_of_mem_uppercase {c mark : Char} (hmark : IsMark mark) (h : mark ∈ uppercase c) :
    mark = c := by
  have hform := isUppercaseForm_uppercase c
  generalize uppercase c = form at h hform
  cases hform with
  | ascii hascii =>
      obtain rfl := List.mem_singleton.1 h
      exact toUpper_eq_of_isMark hascii hmark
  | expanded hentry =>
      obtain ⟨image, himage, rfl⟩ := List.mem_map.1 h
      exact absurd rfl (ofNat_ne_of_contains (contains_of_expansion hentry himage) hmark)
  | shifted hrun himage =>
      have heq := List.mem_singleton.1 h
      exact absurd heq.symm (ofNat_ne_of_contains (contains_of_run hrun himage) hmark)
  | unchanged => exact List.mem_singleton.1 h

end TableModels.Unicode
