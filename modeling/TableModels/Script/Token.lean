/-! # Tokens of a script

A schema document is a script. A token of it carries its text, the white space and the comments
before it, and the number of the line on which it starts, so that the text of any run of tokens can
be read off the run, with its comments or without them. -/

namespace TableModels.Script

/-- What stands between two tokens. -/
inductive Trivia where
  | space (text : List Char)
  | comment (text : List Char)
  deriving DecidableEq

namespace Trivia

/-- The text of a piece of trivia. -/
def text : Trivia → List Char
  | space text => text
  | comment text => text

/-- The text of a piece of trivia in which a blank stands for a comment. -/
def blanked : Trivia → List Char
  | space text => text
  | comment _ => [' ']

/-- White space that ends a line. -/
def endsLine : Trivia → Bool
  | space text => text.any fun c => c == '\n' || c == '\u2028' || c == '\u2029'
  | comment _ => false

end Trivia

/-- The kinds of tokens. -/
inductive TokenKind where
  /-- A name or a keyword. -/
  | word
  | number
  /-- A punctuation mark, a back quote included. -/
  | mark
  /-- A single or double quote that opens or closes a string. -/
  | quote
  /-- Characters of a string or template that stand for themselves. -/
  | fragment
  /-- An escape sequence of a string or template. -/
  | escape
  /-- A regular expression. -/
  | pattern
  /-- Characters that make up no token. -/
  | invalid
  deriving DecidableEq

/-- A token with what stands before it. -/
structure Token where
  trivia : List Trivia
  kind : TokenKind
  text : List Char
  line : Nat
  deriving DecidableEq

namespace Token

/-- The token is the given punctuation mark. -/
def isMark (token : Token) (text : String) : Bool :=
  token.kind == .mark && token.text == text.toList

/-- The token is the given word. -/
def isWord (token : Token) (text : String) : Bool :=
  token.kind == .word && token.text == text.toList

/-- The token is one of the given punctuation marks. -/
def isMarkOf (token : Token) (texts : List String) : Bool :=
  texts.any token.isMark

/-- The token is one of the given words. -/
def isWordOf (token : Token) (texts : List String) : Bool :=
  texts.any token.isWord

/-- A line ends before the token. -/
def startsLine (token : Token) : Bool :=
  token.trivia.any Trivia.endsLine

/-- The token opens a bracket. -/
def opens (token : Token) : Bool :=
  token.isMarkOf ["(", "[", "\x7b", "$\x7b"]

/-- The token closes a bracket. -/
def closes (token : Token) : Bool :=
  token.isMarkOf [")", "]", "\x7d"]

/-- The token closes the bracket that the given token opens. -/
def closesWhat (token opener : Token) : Bool :=
  if opener.isMark "(" then token.isMark ")"
  else if opener.isMark "[" then token.isMark "]"
  else token.isMark "\x7d"

/-- The words that cannot name anything. -/
def reservedWords : List String :=
  ["break", "case", "catch", "class", "const", "continue", "debugger", "default", "delete", "do",
    "else", "enum", "export", "extends", "false", "finally", "for", "function", "if", "import",
    "in", "instanceof", "new", "null", "return", "super", "switch", "this", "throw", "true", "try",
    "typeof", "var", "void", "while", "with"]

/-- The token is a word that can name something. -/
def isName (token : Token) : Bool :=
  token.kind == .word && !token.isWordOf reservedWords

/-- The words that stand for a value although they are reserved. -/
def valueWords : List String :=
  ["this", "super", "null", "true", "false"]

/-- The token can end an operand, so that a slash behind it divides. -/
def endsOperand (token : Token) : Bool :=
  match token.kind with
  | .word => token.isName || token.isWordOf valueWords
  | .mark => token.isMarkOf [")", "]", "\x7d", "\x60"]
  | .number | .quote | .pattern => true
  | .fragment | .escape | .invalid => false

end Token

/-- The text of a run of tokens, from the start of the first to the end of the last. -/
def verbatim : List Token → List Char
  | [] => []
  | token :: rest =>
      token.text ++ rest.flatMap fun later => later.trivia.flatMap Trivia.text ++ later.text

/-- The text of a run of tokens in which a blank stands for each comment. -/
def withoutComments : List Token → List Char
  | [] => []
  | token :: rest =>
      token.text ++ rest.flatMap fun later => later.trivia.flatMap Trivia.blanked ++ later.text

end TableModels.Script
