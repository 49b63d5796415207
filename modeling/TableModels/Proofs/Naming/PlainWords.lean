import TableModels.Proofs.Naming.PascalCase
import TableModels.Proofs.Unicode.UppercaseForms

/-!
# Names that make identifiers

Pascal case keeps what stands inside a word, so it makes an identifier only of some names: there
must be a word, the first must not begin with a digit, and the capitalized words must be made of
letters and digits of ASCII.

## Implementation notes

An underscore may stand in an identifier, but it separates words, and Pascal case never brings it
back. So the condition need not mention it.
-/

namespace TableModels

/-! ### Digits and upper-case forms -/

theorem Unicode.uppercase_of_isDigit {c : Char} (h : c.isDigit = true) : uppercase c = [c] := by
  have hascii := (isMark_of_isDigit h).1
  have hsame : c.isDigit = true → c.toUpper = c := ascii_cases c hascii (by decide)
  rw [uppercase, if_pos hascii, hsame h]

theorem not_isIdentifierStart_of_isDigit {c : Char} (h : c.isDigit = true) :
    isIdentifierStart c = false := by
  have hclass : c.isDigit = true → isIdentifierStart c = false :=
    Unicode.ascii_cases c (Unicode.isMark_of_isDigit h).1 (by decide)
  exact hclass h

/-! ### Words -/

/-- The words of a name are capitalized and put together. -/
def capitalizedWords (text : List Char) : List Char :=
  (Text.split isWordSeparator text).flatMap capitalized

theorem toList_pascalCase (name : String) :
    (pascalCase name).toList = capitalizedWords name.toList := String.toList_ofList

theorem capitalizedWords_cons_of_separator {c : Char} (h : isWordSeparator c = true)
    (text : List Char) : capitalizedWords (c :: text) = capitalizedWords text := by
  rw [capitalizedWords, Text.split, if_pos h]
  rfl

theorem exists_capitalizedWords_cons {c : Char} (h : isWordSeparator c = false)
    (text : List Char) : ∃ rest, capitalizedWords (c :: text) = Unicode.uppercase c ++ rest := by
  rw [capitalizedWords, Text.split, if_neg (Bool.eq_false_iff.mp h)]
  cases Text.split isWordSeparator text with
  | nil => exact ⟨[], List.append_nil _⟩
  | cons word words => exact ⟨word ++ words.flatMap capitalized, List.append_assoc _ _ _⟩

/-- The first character of a text that separates no words. -/
def firstOfWords? (text : List Char) : Option Char :=
  text.find? fun c => !isWordSeparator c

theorem firstOfWords?_cons (c : Char) (text : List Char) :
    firstOfWords? (c :: text) = if isWordSeparator c then firstOfWords? text else some c := by
  rw [firstOfWords?, List.find?_cons]
  cases isWordSeparator c <;> rfl

theorem capitalizedWords_of_none {text : List Char} (h : firstOfWords? text = none) :
    capitalizedWords text = [] := by
  induction text with
  | nil => rfl
  | cons c rest ih =>
      rw [firstOfWords?_cons] at h
      split at h
      · rename_i hc
        rw [capitalizedWords_cons_of_separator hc]
        exact ih h
      · cases h

/-- The words begin with the first of their characters in upper case. -/
theorem exists_capitalizedWords_of_some {text : List Char} {c : Char}
    (h : firstOfWords? text = some c) :
    ∃ rest, capitalizedWords text = Unicode.uppercase c ++ rest := by
  induction text with
  | nil => cases h
  | cons d rest ih =>
      rw [firstOfWords?_cons] at h
      split at h
      · rename_i hd
        rw [capitalizedWords_cons_of_separator hd]
        exact ih h
      · rename_i hd
        cases h
        exact exists_capitalizedWords_cons (Bool.eq_false_iff.mpr hd) rest

/-! ### Identifiers -/

/-- A name of which Pascal case makes an identifier: it has a word, the first does not begin with a
digit, and the capitalized words are made of letters and digits of ASCII. -/
structure HasPlainWords (name : String) : Prop where
  begins : ∃ c, firstOfWords? name.toList = some c ∧ c.isDigit = false
  words : ∀ c ∈ capitalizedWords name.toList, c.isAlphanum = true

theorem isIdentifier_iff {name : String} :
    isIdentifier name = true ↔ ∃ first rest, name.toList = first :: rest ∧
      isIdentifierStart first = true ∧ ∀ c ∈ rest, isIdentifierRest c = true := by
  rw [isIdentifier]
  constructor
  · intro h
    split at h
    · cases h
    · rename_i first rest htext
      obtain ⟨hstart, hrest⟩ := Bool.and_eq_true_iff.mp h
      exact ⟨first, rest, htext, hstart, List.all_eq_true.mp hrest⟩
  · rintro ⟨first, rest, htext, hstart, hrest⟩
    rw [htext]
    exact Bool.and_eq_true_iff.mpr ⟨hstart, List.all_eq_true.mpr hrest⟩

/-- No underscore is left in Pascal case. -/
theorem ne_underscore_of_mem_pascalCase {name : String} {c : Char}
    (h : c ∈ (pascalCase name).toList) : c ≠ '_' := by
  rintro rfl
  exact absurd (mem_of_mem_pascalCase (by decide) h).2 (by decide)

theorem isIdentifier_pascalCase_iff (name : String) :
    isIdentifier (pascalCase name) = true ↔ HasPlainWords name := by
  have htext := toList_pascalCase name
  constructor
  · intro h
    constructor
    case begins =>
      obtain ⟨first, rest, hfirst, hstart, -⟩ := isIdentifier_iff.mp h
      rw [htext] at hfirst
      cases hwords : firstOfWords? name.toList with
      | none =>
          rw [capitalizedWords_of_none hwords] at hfirst
          cases hfirst
      | some c =>
          refine ⟨c, rfl, Bool.eq_false_iff.mpr fun hdigit => ?_⟩
          obtain ⟨behind, hbegins⟩ := exists_capitalizedWords_of_some hwords
          rw [hbegins, Unicode.uppercase_of_isDigit hdigit] at hfirst
          cases hfirst
          rw [not_isIdentifierStart_of_isDigit hdigit] at hstart
          cases hstart
    case words =>
      intro c hc
      rw [← htext] at hc
      have hrest := isIdentifierRest_of_isIdentifier h c hc
      have hne : (c == '_') = false := beq_eq_false_iff_ne.mpr (ne_underscore_of_mem_pascalCase hc)
      rwa [isIdentifierRest, hne, Bool.or_false] at hrest
  · rintro ⟨⟨c, hwords, hdigit⟩, hall⟩
    obtain ⟨behind, hbegins⟩ := exists_capitalizedWords_of_some hwords
    obtain ⟨first, rest, hupper⟩ := List.exists_cons_of_ne_nil (Unicode.uppercase_ne_nil c)
    rw [hupper, List.cons_append] at hbegins
    rw [hbegins, List.forall_mem_cons] at hall
    obtain ⟨hfirst, hrest⟩ := hall
    refine isIdentifier_iff.mpr ⟨first, rest ++ behind, htext.trans hbegins, ?_, ?_⟩
    · -- a digit has no other upper-case origin than itself
      have hletter : first.isDigit = false := by
        rw [Bool.eq_false_iff]
        intro hfirstDigit
        have hmem : first ∈ Unicode.uppercase c := hupper ▸ List.mem_cons_self
        have hsame := Unicode.eq_of_mem_uppercase (Unicode.isMark_of_isDigit hfirstDigit) hmem
        rw [hsame, hdigit] at hfirstDigit
        cases hfirstDigit
      rw [Char.isAlphanum, hletter, Bool.or_false] at hfirst
      rw [isIdentifierStart, hfirst, Bool.true_or]
    · intro d hd
      rw [isIdentifierRest, hrest d hd, Bool.true_or]

instance (name : String) : Decidable (HasPlainWords name) :=
  decidable_of_iff _ (isIdentifier_pascalCase_iff name)

end TableModels
