import TableModels.Text.CharacterDisplay

/-! # Unreadable column expressions

Why a text is no column expression. Places are byte offsets into the UTF-8 form of the text. -/

namespace TableModels.Column

/-- What the grammar of column expressions asks for at a place. -/
inductive Expectation where
  | identifier
  | openingParenthesis
  | commaOrClosingParenthesis
  | value
  deriving DecidableEq

/-- The words for what is expected. -/
def Expectation.words : Expectation → String
  | identifier => "identifier"
  | openingParenthesis => "`(`"
  | commaOrClosingParenthesis => "`,` or `)`"
  | value => "value"

/-- Why a text is no column expression. -/
inductive ExpressionError where
  /-- The text is blank. -/
  | empty
  /-- A character begins no token. -/
  | unexpectedCharacter (c : Char) (offset : Nat)
  /-- A quote or an angle bracket is never closed. -/
  | unterminatedLiteral (offset : Nat)
  /-- The grammar asks for something else. -/
  | expected (what : Expectation) (offset : Nat)
  /-- The expression is over but the text is not. -/
  | trailingInput (offset : Nat)
  deriving DecidableEq

/-- The wording of an error. -/
def ExpressionError.message : ExpressionError → String
  | empty => "empty expression"
  | unexpectedCharacter c offset =>
      s!"unexpected character {Text.quotedCharacter c} at offset {offset}"
  | unterminatedLiteral offset => s!"unterminated literal starting at offset {offset}"
  | expected what offset => s!"expected {what.words} at offset {offset}"
  | trailingInput offset => s!"unexpected trailing input at offset {offset}"

end TableModels.Column
