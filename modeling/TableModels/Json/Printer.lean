import TableModels.Json.Value
import TableModels.Text.CharacterDisplay

/-! # The text of JSON values

Values are written over several lines: each item of an array and each member of an object stands on
a line of its own, indented by two spaces for each level. An empty array or object is written
without a line break. Strings mark quotes, backslashes and control characters, and nothing else. -/

namespace TableModels.Json

/-- A character inside a JSON string. -/
def escapedCharacter (c : Char) : String :=
  if c = '"' then "\\\""
  else if c = '\\' then "\\\\"
  else if c = '\x08' then "\\b"
  else if c = '\x0c' then "\\f"
  else if c = '\n' then "\\n"
  else if c = '\r' then "\\r"
  else if c = '\t' then "\\t"
  else if c.toNat < 0x20 then
    let digits := Text.hexDigits c.toNat
    "\\u" ++ String.ofList (List.replicate (4 - digits.length) '0') ++ digits
  else c.toString

/-- A JSON string with its quotes. -/
def quoted (value : String) : String :=
  "\"" ++ String.join (value.toList.map escapedCharacter) ++ "\""

/-- The text of a number: its digits, with a point before the last `exponent` of them. -/
def numberText (mantissa : Int) (exponent : Nat) : String :=
  if exponent = 0 then
    toString mantissa
  else
    let digits := toString mantissa.natAbs
    let padded := String.ofList (List.replicate (exponent + 1 - digits.length) '0') ++ digits
    let cut := padded.length - exponent
    (if mantissa < 0 then "-" else "") ++ String.ofList (padded.toList.take cut) ++ "."
      ++ String.ofList (padded.toList.drop cut)

/-- A line break followed by the indentation of a level. -/
def lineBreak (level : Nat) : String :=
  "\n" ++ String.ofList (List.replicate (2 * level) ' ')

mutual

/-- The text of a value at a level of indentation. -/
def textAt (level : Nat) : Json → String
  | null => "null"
  | bool true => "true"
  | bool false => "false"
  | number mantissa exponent => numberText mantissa exponent
  | string value => quoted value
  | array [] => "[]"
  | array (first :: rest) =>
      "[" ++ lineBreak (level + 1) ++ textAt (level + 1) first ++ itemsText (level + 1) rest
        ++ lineBreak level ++ "]"
  | object [] => "\x7b\x7d"
  | object ((key, value) :: rest) =>
      "\x7b" ++ lineBreak (level + 1) ++ quoted key ++ ": " ++ textAt (level + 1) value
        ++ membersText (level + 1) rest ++ lineBreak level ++ "\x7d"

/-- The text of the items behind the first item of an array. -/
def itemsText (level : Nat) : List Json → String
  | [] => ""
  | item :: rest => "," ++ lineBreak level ++ textAt level item ++ itemsText level rest

/-- The text of the members behind the first member of an object. -/
def membersText (level : Nat) : List (String × Json) → String
  | [] => ""
  | (key, value) :: rest =>
      "," ++ lineBreak level ++ quoted key ++ ": " ++ textAt level value ++ membersText level rest

end

/-- The text of a value. -/
def render (json : Json) : String :=
  textAt 0 json

end TableModels.Json
