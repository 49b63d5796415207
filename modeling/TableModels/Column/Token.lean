import TableModels.Column.ExpressionError
import TableModels.Source.Identifier
import TableModels.Unicode.Whitespace

/-! # Tokens of column expressions

A column expression is cut into identifiers, numbers, quoted strings, templates, arrows and single
punctuation characters, with white space between them. A token keeps the white space before it and
its own text, so the text of a run of tokens can be read off the run.

## Implementation notes

`lexeme_splits` says that a lexeme is a nonempty beginning of the text it is read from; the cut into
tokens ends because of it. -/

namespace TableModels.Column

open Source (isIdentStart isIdentRest)

/-- What a token is, with its content. -/
inductive TokenKind where
  | ident (name : String)
  | string (value : String)
  | template
  | number (literal : String)
  | arrow
  | punct (c : Char)
  deriving DecidableEq

/-- A token with the byte offset at which it starts, the white space before it, and its text. -/
structure Token where
  kind : TokenKind
  offset : Nat
  gap : List Char
  text : List Char
  deriving DecidableEq

/-- The token is the given punctuation character. -/
def Token.isPunct (token : Token) (c : Char) : Bool :=
  token.kind == .punct c

/-- The number of bytes of a text in UTF-8. -/
def byteLength (text : List Char) : Nat :=
  text.foldr (fun c rest => c.utf8Size + rest) 0

/-- The byte offset just behind a token. -/
def Token.stop (token : Token) : Nat :=
  token.offset + byteLength token.text

/-- A character that may continue a number. -/
def isNumberRest (c : Char) : Bool :=
  c.isDigit || c == '.' || c == '_'

/-- The characters that are tokens by themselves. -/
def isPunctuation (c : Char) : Bool :=
  "()\x7b\x7d[],:.<>-=!|&?+*/;%".toList.contains c

/-- The character that a backslash and the given character stand for. -/
def unescaped (c : Char) : Char :=
  if c = 'n' then '\n' else if c = 't' then '\t' else c

/-- The content of a literal behind its opening quote, with its text up to and including the closing
quote, and the text behind it. -/
def quoted (quote : Char) : List Char → Option (List Char × List Char × List Char)
  | [] => none
  | '\\' :: [] => none
  | '\\' :: c :: rest =>
      (quoted quote rest).map fun (value, text, later) =>
        (unescaped c :: value, '\\' :: c :: text, later)
  | c :: rest =>
      if c = quote then
        some ([], [c], rest)
      else
        (quoted quote rest).map fun (value, text, later) => (c :: value, c :: text, later)

/-- A token read at the start of a text, without its place. -/
structure Lexeme where
  kind : TokenKind
  text : List Char
  rest : List Char

/-- Why no token can be read at the start of a text. -/
inductive LexicalFault where
  | unexpected
  | unterminated

/-- The lexeme made of the first character and the characters behind it that satisfy the
predicate. -/
def spanned (first : Char) (continues : Char → Bool) (rest : List Char)
    (kind : List Char → TokenKind) : Lexeme :=
  let text := first :: rest.takeWhile continues
  ⟨kind text, text, rest.dropWhile continues⟩

/-- The lexeme at the start of the text `first :: rest`, which does not begin with white space. -/
def lexeme (first : Char) (rest : List Char) : Except LexicalFault Lexeme :=
  if isIdentStart first then
    .ok (spanned first isIdentRest rest fun text => .ident (String.ofList text))
  else if first.isDigit then
    .ok (spanned first isNumberRest rest fun text =>
      .number (String.ofList (text.filter (· != '_'))))
  else if first = '"' ∨ first = '\'' ∨ first = '\x60' then
    match quoted first rest with
    | none => .error .unterminated
    | some (value, text, later) =>
        let kind := if first = '\x60' then .template else .string (String.ofList value)
        .ok ⟨kind, first :: text, later⟩
  else
    match first, rest with
    | '=', '>' :: later => .ok ⟨.arrow, ['=', '>'], later⟩
    | _, _ => if isPunctuation first then .ok ⟨.punct first, [first], rest⟩ else .error .unexpected

theorem quoted_splits {quote : Char} {source value text later : List Char}
    (h : quoted quote source = some (value, text, later)) : source = text ++ later := by
  fun_induction quoted quote source generalizing value text later with
  | case1 => simp at h
  | case2 => simp at h
  | case3 c rest ih =>
      obtain ⟨⟨v, t, l⟩, hq, he⟩ := Option.map_eq_some_iff.1 h
      simp only [Prod.mk.injEq] at he
      obtain ⟨rfl, rfl, rfl⟩ := he
      simp [ih hq]
  | case4 =>
      simp only [Option.some.injEq, Prod.mk.injEq] at h
      obtain ⟨_, rfl, rfl⟩ := h
      rfl
  | case5 c rest _ _ _ ih =>
      obtain ⟨⟨v, t, l⟩, hq, he⟩ := Option.map_eq_some_iff.1 h
      simp only [Prod.mk.injEq] at he
      obtain ⟨rfl, rfl, rfl⟩ := he
      simp [ih hq]

/-- A lexeme is a nonempty beginning of the text that it is read from. -/
theorem lexeme_splits {first : Char} {rest : List Char} {read : Lexeme}
    (h : lexeme first rest = .ok read) :
    first :: rest = read.text ++ read.rest ∧ read.text ≠ [] := by
  unfold lexeme at h
  split at h
  · cases h
    simp [spanned]
  · split at h
    · cases h
      simp [spanned]
    · split at h
      · split at h
        · cases h
        · rename_i hq
          cases h
          simp [quoted_splits hq]
      · split at h
        · cases h
          simp
        · split at h
          · cases h
            simp
          · cases h

theorem length_rest_lt_of_lexeme {first : Char} {rest : List Char} {read : Lexeme}
    (h : lexeme first rest = .ok read) : read.rest.length < rest.length + 1 := by
  obtain ⟨heq, hne⟩ := lexeme_splits h
  have hlength := congrArg List.length heq
  have hpos := List.length_pos_iff.2 hne
  simp only [List.length_cons, List.length_append] at hlength
  omega

/-- The tokens of a text that starts at a byte offset. -/
def tokensFrom (offset : Nat) (text : List Char) : Except ExpressionError (List Token) :=
  let gap := text.takeWhile Unicode.isWhitespace
  let start := offset + byteLength gap
  match _hrest : text.dropWhile Unicode.isWhitespace with
  | [] => .ok []
  | c :: rest =>
      match _hread : lexeme c rest with
      | .error .unexpected => .error (.unexpectedCharacter c start)
      | .error .unterminated => .error (.unterminatedLiteral start)
      | .ok read =>
          match tokensFrom (start + byteLength read.text) read.rest with
          | .error error => .error error
          | .ok tokens => .ok (⟨read.kind, start, gap, read.text⟩ :: tokens)
termination_by text.length
decreasing_by
  have hlt := length_rest_lt_of_lexeme _hread
  have hle := (List.dropWhile_sublist (p := Unicode.isWhitespace) (l := text)).length_le
  rw [_hrest, List.length_cons] at hle
  omega

/-- The tokens of a text. -/
def tokenize (text : List Char) : Except ExpressionError (List Token) :=
  tokensFrom 0 text

end TableModels.Column
