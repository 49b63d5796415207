import TableModels.Toml.Number

/-! # Settings documents

A TOML document is a list of lines: headers of tables, and keys with their values, which belong to
the table of the last header. No key and no table may be defined twice.

## Implementation notes

Values hold values, and lists may be long, so the readers are given a bound on how deep they may go.
Each step takes at least one character, so the length of the text is bound enough. The limit on open
brackets is apart from that, and belongs to the format. -/

namespace TableModels.Toml

/-- A character of a key without quotes. -/
def isBareKey (c : Char) : Bool :=
  c.isAlphanum || c == '_' || c == '-'

/-- The part of a key at the head of a text. -/
def keyPart? (text : List Char) : Option (String × List Char) :=
  match text with
  | '"' :: _ | '\'' :: _ => shortString? text
  | _ =>
      let name := text.takeWhile isBareKey
      if name.isEmpty then none else some (String.ofList name, text.dropWhile isBareKey)

/-- How many parts a key may have, and how many brackets may be open at a time. -/
def nestingLimit : Nat := 79

/-- The key at the head of a text, of at most `parts` parts: the parts before the last, the last,
and the text behind them and their blanks. -/
def keyOf? (parts : Nat) (text : List Char) : Option (List String × String × List Char) :=
  match parts with
  | 0 => none
  | parts + 1 =>
      match keyPart? (skipBlanks text) with
      | none => none
      | some (part, rest) =>
          match skipBlanks rest with
          | '.' :: later =>
              (keyOf? parts later).map fun (path, last, behind) => (part :: path, last, behind)
          | behind => some ([], part, behind)

/-- The key at the head of a text. -/
def key? (text : List Char) : Option (List String × String × List Char) :=
  keyOf? nestingLimit text

/-- A value without parts at the head of a text. -/
def scalar? (text : List Char) : Option (Value × List Char) :=
  match text with
  | '"' :: _ | '\'' :: _ => (string? text).map fun (content, rest) => (.string content, rest)
  | 't' :: 'r' :: 'u' :: 'e' :: rest => some (.bool true, rest)
  | 'f' :: 'a' :: 'l' :: 's' :: 'e' :: rest => some (.bool false, rest)
  | _ =>
      match moment? text with
      | some result => some result
      | none => number? text

mutual

/-- The value at the head of a text, in which at most `nesting` brackets are open at a time. -/
def value? (nesting : Nat) : Nat → List Char → Option (Value × List Char)
  | 0, _ => none
  | depth + 1, text =>
      match text, nesting with
      | '[' :: _, 0 | '\x7b' :: _, 0 => none
      | '[' :: rest, nesting + 1 =>
          (items? nesting depth (skipLines rest)).map fun (items, later) => (.array items, later)
      | '\x7b' :: rest, nesting + 1 =>
          match skipBlanks rest with
          | '\x7d' :: later => some (.table .inline [], later)
          | inside =>
              (members? nesting depth [] inside).map fun (members, later) =>
                (.table .inline members, later)
      | text, _ => scalar? text

/-- The items of an array behind its opening bracket, and the text behind its closing bracket. -/
def items? (nesting : Nat) : Nat → List Char → Option (List Value × List Char)
  | 0, _ => none
  | depth + 1, text =>
      match text with
      | ']' :: rest => some ([], rest)
      | text =>
          match value? nesting depth text with
          | none => none
          | some (item, rest) =>
              match skipLines rest with
              | ',' :: later =>
                  (items? nesting depth (skipLines later)).map fun (items, behind) =>
                    (item :: items, behind)
              | ']' :: later => some ([item], later)
              | _ => none

/-- The members of an inline table, added to those before, and the text behind its closing brace. -/
def members? (nesting : Nat) : Nat → Members → List Char → Option (Members × List Char)
  | 0, _, _ => none
  | depth + 1, before, text =>
      match key? text with
      | some (path, key, '=' :: rest) =>
          match value? nesting depth (skipBlanks rest) with
          | none => none
          | some (value, rest) =>
              match before.insert? path key value .inline with
              | none => none
              | some (_, after) =>
                  match skipBlanks rest with
                  | ',' :: later => members? nesting depth after later
                  | '\x7d' :: later => some (after, later)
                  | _ => none
      | _ => none

end

/-- A document that has been read so far: its members, and the header that the next keys belong
to. -/
structure Draft where
  header : List String
  members : Members

namespace Draft

/-- The draft with one more key. -/
def addKey? (draft : Draft) (path : List String) (key : String) (value : Value) : Option Draft :=
  (draft.members.changeAt? false (Members.insert? path key value) draft.header .header).map
    fun (_, members) => { draft with members }

/-- Read one line, and give the text behind it. -/
def line? (draft : Draft) (text : List Char) : Option (Draft × List Char) :=
  match skipBlanks text with
  | '[' :: '[' :: rest => do
      let (path, key, rest) ← key? rest
      let rest ← (afterChar? ']' rest).bind (afterChar? ']')
      let members ← draft.members.openElement? path key
      let rest ← lineEnd? rest
      return (⟨path ++ [key], members⟩, rest)
  | '[' :: rest => do
      let (path, key, rest) ← key? rest
      let rest ← afterChar? ']' rest
      let members ← draft.members.openTable? path key
      let rest ← lineEnd? rest
      return (⟨path ++ [key], members⟩, rest)
  | start =>
      match lineEnd? start with
      | some rest => some (draft, rest)
      | none => do
          let (path, key, rest) ← key? start
          let rest ← afterChar? '=' rest
          let (value, rest) ← value? nestingLimit (text.length + 1) (skipBlanks rest)
          let draft ← draft.addKey? path key value
          let rest ← lineEnd? rest
          return (draft, rest)

/-- Read all lines. -/
def lines? : Nat → Draft → List Char → Option Draft
  | _, draft, [] => some draft
  | 0, _, _ :: _ => none
  | depth + 1, draft, text =>
      match draft.line? text with
      | none => none
      | some (draft, rest) => lines? depth draft rest

end Draft

/-- The members of the document that a text is. A byte order mark may precede it. -/
def parse? (text : String) : Option Members :=
  let lines := match text.toList with
    | '\uFEFF' :: rest => rest
    | lines => lines
  (Draft.lines? lines.length ⟨[], []⟩ lines).map (·.members)


end TableModels.Toml
