import TableModels.Text.Pieces

/-! # Text in a settings file

The parts of a TOML document below its values: blanks, comments, ends of lines, and strings in their
four forms. A reader takes what it reads from the head of a text and gives the text behind it.

## Implementation notes

The readers of strings take at least one character in each step, so they end because the text gets
shorter. -/

namespace TableModels.Toml

/-- A blank inside a line. -/
def isBlank (c : Char) : Bool :=
  c == ' ' || c == '\t'

/-- A character that may stand in comments and literal strings. -/
def isPlain (c : Char) : Bool :=
  c == '\t' || (0x20 ≤ c.toNat && c != '\x7f')

/-- The text without leading blanks. -/
def skipBlanks (text : List Char) : List Char :=
  text.dropWhile isBlank

/-- The text behind a line break, if it begins with one. -/
def newline? : List Char → Option (List Char)
  | '\n' :: rest => some rest
  | '\r' :: '\n' :: rest => some rest
  | _ => none

/-- The text behind a comment, if it begins with one, and otherwise the text. -/
def skipComment : List Char → List Char
  | '#' :: rest => rest.dropWhile isPlain
  | text => text

/-- The text behind the end of a line, which blanks and a comment may precede. -/
def lineEnd? (text : List Char) : Option (List Char) :=
  match skipComment (skipBlanks text) with
  | [] => some []
  | rest => newline? rest

/-- The text behind blanks, comments and line breaks. -/
def skipLines (text : List Char) : List Char :=
  match _h : skipBlanks text with
  | '#' :: rest =>
      match _h2 : newline? (rest.dropWhile isPlain) with
      | some later => skipLines later
      | none => rest.dropWhile isPlain
  | '\n' :: later => skipLines later
  | '\r' :: '\n' :: later => skipLines later
  | rest => rest
termination_by text.length
decreasing_by
  · have h1 := (List.dropWhile_sublist (p := isBlank) (l := text)).length_le
    have h2 := (List.dropWhile_sublist (p := isPlain) (l := rest)).length_le
    have h3 : later.length ≤ (rest.dropWhile isPlain).length := by
      unfold newline? at _h2
      split at _h2
      · rename_i heq
        cases _h2
        simp [heq]
      · rename_i heq
        cases _h2
        simp only [heq, List.length_cons]
        omega
      · cases _h2
    simp only [skipBlanks] at _h
    rw [_h, List.length_cons] at h1
    omega
  · have h1 := (List.dropWhile_sublist (p := isBlank) (l := text)).length_le
    simp only [skipBlanks] at _h
    rw [_h, List.length_cons] at h1
    omega
  · have h1 := (List.dropWhile_sublist (p := isBlank) (l := text)).length_le
    simp only [skipBlanks] at _h
    rw [_h, List.length_cons, List.length_cons] at h1
    omega

/-- The value of a digit of base sixteen. -/
def hexValue? (c : Char) : Option Nat :=
  if c.isDigit then some (c.toNat - '0'.toNat)
  else if 'a' ≤ c && c ≤ 'f' then some (c.toNat - 'a'.toNat + 10)
  else if 'A' ≤ c && c ≤ 'F' then some (c.toNat - 'A'.toNat + 10)
  else none

/-- The character whose code point is written with exactly `count` digits of base sixteen at the
head of a text. -/
def codePoint? (count : Nat) (text : List Char) : Option Char :=
  if text.length < count then
    none
  else
    match (text.take count).mapM hexValue? with
    | none => none
    | some digits =>
        let code := digits.foldl (fun value digit => value * 16 + digit) 0
        if h : code.isValidChar then some (Char.ofNatAux code h) else none

/-- The character of an escape sequence behind its backslash, and the number of the characters of
the sequence. -/
def escape? : List Char → Option (Char × Nat)
  | 'b' :: _ => some ('\x08', 1)
  | 't' :: _ => some ('\t', 1)
  | 'n' :: _ => some ('\n', 1)
  | 'f' :: _ => some ('\x0c', 1)
  | 'r' :: _ => some ('\r', 1)
  | '"' :: _ => some ('"', 1)
  | '\\' :: _ => some ('\\', 1)
  | 'u' :: rest => (codePoint? 4 rest).map fun c => (c, 5)
  | 'U' :: rest => (codePoint? 8 rest).map fun c => (c, 9)
  | _ => none

/-- The content of a string of one line behind its opening quote. -/
def basicContent? (text : List Char) : Option (List Char × List Char) :=
  match text with
  | [] => none
  | c :: rest =>
      if c = '"' then
        some ([], rest)
      else if c = '\\' then
        match escape? rest with
        | none => none
        | some (value, size) =>
            (basicContent? (rest.drop size)).map fun (content, later) => (value :: content, later)
      else if isPlain c then
        (basicContent? rest).map fun (content, later) => (c :: content, later)
      else
        none
termination_by text.length
decreasing_by all_goals (simp only [List.length_cons, List.length_drop]; omega)

/-- The content of a literal string of one line behind its opening quote. -/
def literalContent? : List Char → Option (List Char × List Char)
  | [] => none
  | c :: rest =>
      if c = '\'' then some ([], rest)
      else if isPlain c then
        (literalContent? rest).map fun (content, later) => (c :: content, later)
      else none

/-- The text behind a backslash that joins lines, if blanks and a line break follow. -/
def joinedLines? (text : List Char) : Option (List Char) :=
  (newline? (skipBlanks text)).map (·.dropWhile fun c => isBlank c || c == '\n' || c == '\r')

theorem length_joinedLines? {text rest : List Char} (h : joinedLines? text = some rest) :
    rest.length < text.length := by
  obtain ⟨later, hline, rfl⟩ := Option.map_eq_some_iff.1 h
  have h1 := (List.dropWhile_sublist (p := isBlank) (l := text)).length_le
  have h2 := (List.dropWhile_sublist (p := fun c => isBlank c || c == '\n' || c == '\r')
    (l := later)).length_le
  unfold newline? skipBlanks at hline
  split at hline
  · rename_i heq
    cases hline
    rw [heq, List.length_cons] at h1
    omega
  · rename_i heq
    cases hline
    rw [heq, List.length_cons, List.length_cons] at h1
    omega
  · cases hline

/-- The number of quotes at the head of a text. -/
def quoteRun (quote : Char) (text : List Char) : Nat :=
  (text.takeWhile (· == quote)).length

/-- The content of a string of several lines behind its opening quotes. Three quotes close it, and
up to two more before them belong to it. -/
def longContent? (quote : Char) (text : List Char) : Option (List Char × List Char) :=
  match text with
  | [] => none
  | c :: rest =>
      if c = quote then
        let run := quoteRun quote text
        if 3 ≤ run then
          some (List.replicate (min run 5 - 3) quote, text.drop (min run 5))
        else
          (longContent? quote rest).map fun (content, later) => (c :: content, later)
      else if c = '\\' ∧ quote = '"' then
        match _h : joinedLines? rest with
        | some later => longContent? quote later
        | none =>
            match escape? rest with
            | none => none
            | some (value, size) =>
                (longContent? quote (rest.drop size)).map fun (content, later) =>
                  (value :: content, later)
      else if c = '\n' then
        (longContent? quote rest).map fun (content, later) => ('\n' :: content, later)
      else if c = '\r' then
        match rest with
        | '\n' :: later =>
            (longContent? quote later).map fun (content, later) => ('\n' :: content, later)
        | _ => none
      else if isPlain c then
        (longContent? quote rest).map fun (content, later) => (c :: content, later)
      else
        none
termination_by text.length
decreasing_by
  · simp only [List.length_cons]
    omega
  · have := length_joinedLines? _h
    simp only [List.length_cons]
    omega
  · simp only [List.length_cons, List.length_drop]
    omega
  · simp only [List.length_cons]
    omega
  · simp only [List.length_cons]
    omega
  · simp only [List.length_cons]
    omega

/-- The text behind a line break that stands at the very start of a string of several lines. -/
def skipNewline (text : List Char) : List Char :=
  (newline? text).getD text

/-- The content of a string of one line, quotes of either kind. -/
def shortString? : List Char → Option (String × List Char)
  | '"' :: rest => (basicContent? rest).map fun (content, later) => (String.ofList content, later)
  | '\'' :: rest =>
      (literalContent? rest).map fun (content, later) => (String.ofList content, later)
  | _ => none

/-- The content of a string. -/
def string? (text : List Char) : Option (String × List Char) :=
  match text with
  | '"' :: '"' :: '"' :: rest =>
      (longContent? '"' (skipNewline rest)).map fun (content, later) =>
        (String.ofList content, later)
  | '\'' :: '\'' :: '\'' :: rest =>
      (longContent? '\'' (skipNewline rest)).map fun (content, later) =>
        (String.ofList content, later)
  | text => shortString? text

end TableModels.Toml
