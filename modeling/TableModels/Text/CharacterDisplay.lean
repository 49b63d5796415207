import TableModels.Unicode.Unprintable

/-! # A character in a message

A message names a character between single quotes. A quote, a backslash and the common controls are
written with a backslash, and a character without a shape of its own is written by its code point in
hexadecimal, `\x7b` being the brace around it. -/

namespace TableModels.Text

/-- The hexadecimal digits of a number, in lower case and without leading zeros. -/
def hexDigits (n : Nat) : String :=
  String.ofList (Nat.toDigits 16 n)

/-- A character between single quotes, as messages name it. -/
def quotedCharacter (c : Char) : String :=
  let shown :=
    if c = '\x00' then "\\0"
    else if c = '\t' then "\\t"
    else if c = '\r' then "\\r"
    else if c = '\n' then "\\n"
    else if c = '\'' then "\\'"
    else if c = '\\' then "\\\\"
    else if Unicode.isUnprintable c then "\\u\x7b" ++ hexDigits c.toNat ++ "\x7d"
    else c.toString
  "'" ++ shown ++ "'"

end TableModels.Text
