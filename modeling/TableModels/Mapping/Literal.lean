import TableModels.Column.Expression
import TableModels.Text.Pieces

/-! # Default values that are kept

Which default values of a column are written into the target document: integer and decimal literals
by their spelling, and expressions that stand for the current time by what they contain. -/

namespace TableModels.Mapping

/-- The text without a leading minus sign. -/
def withoutSign : List Char → List Char
  | '-' :: digits => digits
  | text => text

/-- One or more decimal digits. -/
def isDigits (text : List Char) : Bool :=
  !text.isEmpty && text.all Char.isDigit

/-- An optional minus sign followed by digits. -/
def isIntegerLiteral (literal : String) : Bool :=
  isDigits (withoutSign literal.toList)

/-- An optional minus sign followed by digits, or by digits, a point and digits. -/
def isDecimalLiteral (literal : String) : Bool :=
  let text := withoutSign literal.toList
  let whole := text.takeWhile (· != '.')
  match text.dropWhile (· != '.') with
  | [] => isDigits whole
  | _ :: fraction => isDigits whole && isDigits fraction

/-- An expression that mentions the current time, in upper or lower case. -/
def isNowExpression : Column.Value → Bool
  | .verbatim text =>
      let lower := text.toList.map Char.toLower
      Text.occursIn "current_timestamp".toList lower || Text.occursIn "now()".toList lower
  | _ => false

end TableModels.Mapping
