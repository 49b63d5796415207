import TableModels.Script.Token
import TableModels.Unicode.Whitespace

/-! # Cutting a script into tokens

A script is cut from the left. What comes next depends on what is open: inside a string or a
template stand fragments and escape sequences; elsewhere, and in the substitutions of a template,
stand words, numbers, marks and regular expressions with white space and comments between them. A
slash behind an operand divides, and any other slash begins a regular expression.

## Implementation notes

A lexeme is given by its kind and by the number of its characters behind the first. Its text and the
text behind it are then taken with `take` and `drop`, so every step makes the text shorter. A
`>` is always a token of its own, because it may close a list of type arguments. -/

namespace TableModels.Script

/-- What is open at a place of a script. -/
inductive Context where
  | brace
  | template
  /-- The braces of a substitution inside a template. -/
  | substitution
  | string (quote : Char)
  deriving DecidableEq

/-- A character that separates tokens. -/
def isBlank (c : Char) : Bool :=
  Unicode.isWhitespace c || c == '\uFEFF' || c == '\u2060' || c == '\u200B'

/-- A character that ends a line. -/
def isLineEnd (c : Char) : Bool :=
  c == '\n' || c == '\r' || c == '\u2028' || c == '\u2029'

/-- A character that may continue a word. -/
def isWordRest (c : Char) : Bool :=
  0x20 ≤ c.toNat && !isBlank c && !":;\x60\"'@#.,|^&<=>+-*/\\%?!~()[]\x7b\x7d".toList.contains c

/-- A character that may begin a word. -/
def isWordStart (c : Char) : Bool :=
  isWordRest c && !c.isDigit

/-- A digit of base sixteen. -/
def isHexDigit (c : Char) : Bool :=
  c.isDigit || ('a' ≤ c && c ≤ 'f') || ('A' ≤ c && c ≤ 'F')

/-- A digit of base eight. -/
def isOctalDigit (c : Char) : Bool :=
  '0' ≤ c && c ≤ '7'

/-- The number of characters at the head of a text that satisfy a predicate. -/
def countWhile (accepts : Char → Bool) (text : List Char) : Nat :=
  (text.takeWhile accepts).length

/-- The number of characters of a block comment behind its opening. -/
def blockCommentSize? : List Char → Option Nat
  | [] => none
  | '*' :: '/' :: _ => some 2
  | _ :: rest => (blockCommentSize? rest).map (· + 1)

/-- The piece of trivia at the head of a text, as its maker and its size behind the first
character. -/
def triviaPiece? (first : Char) (rest : List Char) : Option ((List Char → Trivia) × Nat) :=
  if isBlank first then
    some (.space, countWhile isBlank rest)
  else
    match first, rest with
    | '/', '/' :: later => some (.comment, countWhile (!isLineEnd ·) later + 1)
    | '/', '*' :: later => (blockCommentSize? later).map fun size => (.comment, size + 1)
    | _, _ => none

/-- The marks of more than one character, where no mark stands behind a longer one that begins with
it. -/
def longMarks : List String :=
  ["...", "===", "!==", "**=", "<<=", "&&=", "||=", "??=", "==", "!=", "=>", "<=", "<<", "**", "++",
    "--", "&&", "||", "??", "?.", "+=", "-=", "*=", "/=", "%=", "&=", "|=", "^="]

/-- The number of characters of the mark at the head of a text behind its first. -/
def markExtra (text : List Char) : Nat :=
  match longMarks.find? fun mark => mark.toList.isPrefixOf text with
  | none => 0
  | some mark =>
      if mark = "?." && (text.drop 2).head?.any Char.isDigit then 0 else mark.length - 1

/-- The number of characters of an exponent at the head of a text, its letter included. -/
def exponentSize : List Char → Nat
  | c :: rest =>
      if c == 'e' || c == 'E' then
        match rest with
        | sign :: later =>
            if sign.isDigit then
              countWhile Char.isDigit rest + 1
            else if (sign == '+' || sign == '-') && later.head?.any Char.isDigit then
              countWhile Char.isDigit later + 2
            else
              0
        | [] => 0
      else
        0
  | [] => 0

/-- A digit or the sign that groups digits. -/
def isGroupedDigit (c : Char) : Bool :=
  c.isDigit || c == '_'

/-- The number of characters of a fraction at the head of a text, its point included. -/
def fractionSize : List Char → Nat
  | '.' :: rest => countWhile isGroupedDigit rest + 1
  | _ => 0

/-- The number of characters of a number behind its first. -/
def numberExtra (first : Char) (rest : List Char) : Nat :=
  if first == '0' && rest.head?.any "xXoObB".toList.contains then
    countWhile (fun c => c.isAlphanum || c == '_') rest
  else
    let whole := if first == '.' then 0 else countWhile isGroupedDigit rest
    let fraction :=
      if first == '.' then countWhile isGroupedDigit rest else fractionSize (rest.drop whole)
    let exponent := exponentSize (rest.drop (whole + fraction))
    let size := whole + fraction + exponent
    if fraction = 0 && exponent = 0 && (rest.drop size).head? == some 'n' then size + 1 else size

/-- The number of characters of a regular expression behind its opening slash up to and including
its closing slash; inside square brackets a slash does not close it. -/
def patternSize? (inClass : Bool) : List Char → Option Nat
  | [] => none
  | [c] => if c == '/' && !inClass then some 1 else none
  | c :: d :: rest =>
      if isLineEnd c then
        none
      else if c == '\\' then
        if isLineEnd d then none else (patternSize? inClass rest).map (· + 2)
      else if c == '/' && !inClass then
        some 1
      else
        (patternSize? (if c == '[' then true else if c == ']' then false else inClass)
          (d :: rest)).map (· + 1)

/-- The number of characters of a regular expression, its flags included, behind its opening
slash. -/
def patternExtra? (rest : List Char) : Option Nat :=
  (patternSize? false rest).map fun size => size + countWhile Char.isLower (rest.drop size)

/-- The number of characters of an escape sequence behind its backslash. -/
def escapeExtra? : List Char → Option Nat
  | [] => none
  | 'x' :: a :: b :: _ => if isHexDigit a && isHexDigit b then some 3 else none
  | ['x'] | ['x', _] => none
  | 'u' :: '\x7b' :: rest =>
      let digits := countWhile isHexDigit rest
      if 0 < digits && (rest.drop digits).head? == some '\x7d' then some (digits + 3) else none
  | 'u' :: rest =>
      if 4 ≤ rest.length && (rest.take 4).all isHexDigit then some 5 else none
  | '\r' :: '\n' :: _ => some 2
  | c :: rest =>
      if isOctalDigit c then some (1 + min 2 (countWhile isOctalDigit rest)) else some 1

/-- A lexeme: its kind, the number of its characters behind the first, and what is open behind
it. -/
structure Lexeme where
  kind : TokenKind
  extra : Nat
  contexts : List Context

/-- The lexeme that a backslash begins in a string or template. -/
def escapeLexeme (contexts : List Context) (rest : List Char) : Lexeme :=
  match escapeExtra? rest with
  | some extra => ⟨.escape, extra, contexts⟩
  | none => ⟨.invalid, 0, contexts⟩

/-- The lexeme at the head of a text inside a string. -/
def stringLexeme (quote : Char) (outer : List Context) (first : Char) (rest : List Char) : Lexeme :=
  let inside := .string quote :: outer
  if first == quote then
    ⟨.quote, 0, outer⟩
  else if first == '\\' then
    escapeLexeme inside rest
  else if first == '\n' || first == '\r' then
    ⟨.invalid, 0, outer⟩
  else
    ⟨.fragment, countWhile (fun c => c != quote && c != '\\' && c != '\n' && c != '\r') rest,
      inside⟩

/-- The number of characters up to the next back quote, backslash or substitution. -/
def chunkSize : List Char → Nat
  | [] => 0
  | [c] => if c == '\x60' || c == '\\' then 0 else 1
  | c :: d :: rest =>
      if c == '\x60' || c == '\\' || (c == '$' && d == '\x7b') then 0 else chunkSize (d :: rest) + 1

/-- The lexeme at the head of a text inside a template. -/
def templateLexeme (outer : List Context) (first : Char) (rest : List Char) : Lexeme :=
  let inside := .template :: outer
  if first == '\x60' then
    ⟨.mark, 0, outer⟩
  else if first == '\\' then
    escapeLexeme inside rest
  else if first == '$' && rest.head? == some '\x7b' then
    ⟨.mark, 1, .substitution :: inside⟩
  else
    ⟨.fragment, chunkSize rest, inside⟩

/-- The mark, or regular expression, at the head of a text. -/
def markLexeme (slashDivides : Bool) (contexts : List Context) (first : Char) (rest : List Char) :
    Lexeme :=
  let mark : Lexeme := ⟨.mark, markExtra (first :: rest), contexts⟩
  match first with
  | '\x60' => ⟨.mark, 0, .template :: contexts⟩
  | '\x7b' => ⟨.mark, 0, .brace :: contexts⟩
  | '\x7d' => ⟨.mark, 0, contexts.tail⟩
  | '/' =>
      match patternExtra? rest with
      | some extra => if slashDivides then mark else ⟨.pattern, extra, contexts⟩
      | none => mark
  | _ => mark

/-- The lexeme at the head of a text outside of strings and templates. -/
def codeLexeme (slashDivides : Bool) (contexts : List Context) (first : Char) (rest : List Char) :
    Lexeme :=
  if isWordStart first then
    ⟨.word, countWhile isWordRest rest, contexts⟩
  else if first == '#' && rest.head?.any isWordStart then
    ⟨.word, countWhile isWordRest rest, contexts⟩
  else if first.isDigit || (first == '.' && rest.head?.any Char.isDigit) then
    ⟨.number, numberExtra first rest, contexts⟩
  else if first == '"' || first == '\'' then
    ⟨.quote, 0, .string first :: contexts⟩
  else if isWordRest first || "\\#".toList.contains first || first.toNat < 0x20 then
    ⟨.invalid, 0, contexts⟩
  else
    markLexeme slashDivides contexts first rest

/-- The lexeme at the head of a text. -/
def lexeme (contexts : List Context) (slashDivides : Bool) (first : Char) (rest : List Char) :
    Lexeme :=
  match contexts with
  | .string quote :: outer => stringLexeme quote outer first rest
  | .template :: outer => templateLexeme outer first rest
  | contexts => codeLexeme slashDivides contexts first rest

/-- The place is inside a string or a template, where nothing separates tokens. -/
def insideLiteral : List Context → Bool
  | .string _ :: _ | .template :: _ => true
  | _ => false

/-- The number of lines that a text ends. -/
def lineFeeds (text : List Char) : Nat :=
  text.count '\n'

/-- The tokens of a text, where `pending` has been passed since the token before. What stands behind
the last token is dropped. -/
def tokensFrom (contexts : List Context) (slashDivides : Bool) (line : Nat)
    (pending : List Trivia) (text : List Char) : List Token :=
  match text with
  | [] => []
  | first :: rest =>
      match if insideLiteral contexts then none else triviaPiece? first rest with
      | some (make, extra) =>
          let piece := (first :: rest).take (extra + 1)
          tokensFrom contexts slashDivides (line + lineFeeds piece) (pending ++ [make piece])
            (rest.drop extra)
      | none =>
          let read := lexeme contexts slashDivides first rest
          let piece := (first :: rest).take (read.extra + 1)
          let token : Token := ⟨pending, read.kind, piece, line⟩
          token :: tokensFrom read.contexts token.endsOperand (line + lineFeeds piece) []
            (rest.drop read.extra)
termination_by text.length
decreasing_by
  all_goals
    simp only [List.length_cons, List.length_drop]
    omega

/-- The tokens of a script. A first line that begins with a number sign and an exclamation mark is a
comment. -/
def tokenize (text : List Char) : List Token :=
  match text with
  | '#' :: '!' :: _ =>
      let line := text.takeWhile (!isLineEnd ·)
      tokensFrom [] false 1 [.comment line] (text.drop line.length)
  | text => tokensFrom [] false 1 [] text

end TableModels.Script
