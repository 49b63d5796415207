import TableModels.Text.Pieces

/-! # Squashing white space

A text is brought onto one line: it is trimmed, and each run of white space outside of quoted
literals becomes one blank. Inside a literal, which a double quote, a single quote or a back quote
opens, every character is kept, and a backslash keeps the next character from closing it. -/

namespace TableModels.Text

/-- A character that opens a literal, which the same character closes. -/
def isQuote (c : Char) : Bool :=
  c == '"' || c == '\'' || c == '\x60'

mutual

/-- The squashed text outside of literals; `pending` tells that white space has been passed. -/
def squashOutside (pending : Bool) : List Char → List Char
  | [] => []
  | c :: rest =>
      if Unicode.isWhitespace c then
        squashOutside true rest
      else
        let kept := c :: if isQuote c then squashInside c rest else squashOutside false rest
        if pending then ' ' :: kept else kept

/-- The squashed text behind the opening quote of a literal. -/
def squashInside (quote : Char) : List Char → List Char
  | [] => []
  | [c] => [c]
  | c :: d :: rest =>
      if c = '\\' then
        c :: d :: squashInside quote rest
      else if c = quote then
        c :: squashOutside false (d :: rest)
      else
        c :: squashInside quote (d :: rest)

end

/-- The text on one line. -/
def squash (text : List Char) : List Char :=
  squashOutside false (trim text)

end TableModels.Text
