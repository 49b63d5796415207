import TableModels.Unicode.Numeric

/-! # Identifiers of the source document

The characters that make up identifiers: an alphabetic character, an underscore or a dollar sign,
followed by alphanumeric characters, underscores and dollar signs. -/

namespace TableModels.Source

/-- A character that may begin an identifier. -/
def isIdentStart (c : Char) : Bool :=
  Unicode.isAlphabetic c || c == '_' || c == '$'

/-- A character that may continue an identifier. -/
def isIdentRest (c : Char) : Bool :=
  Unicode.isAlphanumeric c || c == '_' || c == '$'

theorem isIdentRest_of_isIdentStart {c : Char} (h : isIdentStart c = true) :
    isIdentRest c = true := by
  simp only [isIdentStart, isIdentRest, Unicode.isAlphanumeric, Bool.or_eq_true] at h ⊢
  rcases h with (h | h) | h <;> simp [h]

/-- A text that is an identifier. -/
def isIdent : List Char → Bool
  | [] => false
  | c :: rest => isIdentStart c && rest.all isIdentRest

end TableModels.Source
