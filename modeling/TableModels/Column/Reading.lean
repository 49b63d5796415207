import TableModels.Column.Expression
import TableModels.Column.Token

/-! # Reading column expressions

The grammar of column expressions over tokens. The extent of an argument is fixed before its value
is: an argument is the run of tokens up to the next comma or closing bracket outside of brackets,
where all kinds of bracket count alike. A run that is a literal as a whole denotes that literal, and
any other run denotes its own text. A list of type arguments between angle brackets is skipped.

## Implementation notes

`valueRun_append` says that a run and what follows it make up the tokens it is taken from, and this
is why the mutual recursion of values, entries and items ends. -/

namespace TableModels.Column

/-- The token opens a bracket. -/
def Token.opens (token : Token) : Bool :=
  token.isPunct '(' || token.isPunct '[' || token.isPunct '{'

/-- The token closes a bracket. -/
def Token.closes (token : Token) : Bool :=
  token.isPunct ')' || token.isPunct ']' || token.isPunct '}'

/-- The run of tokens up to the next comma or closing bracket outside of brackets, inside `depth`
brackets that are already open, and the tokens from there on. -/
def valueRun (depth : Nat) : List Token → List Token × List Token
  | [] => ([], [])
  | token :: rest =>
      if token.opens then
        let (run, later) := valueRun (depth + 1) rest
        (token :: run, later)
      else if token.closes then
        match depth with
        | 0 => ([], token :: rest)
        | depth + 1 =>
            let (run, later) := valueRun depth rest
            (token :: run, later)
      else if depth = 0 ∧ token.isPunct ',' then
        ([], token :: rest)
      else
        let (run, later) := valueRun depth rest
        (token :: run, later)

theorem valueRun_append (depth : Nat) (tokens : List Token) :
    (valueRun depth tokens).1 ++ (valueRun depth tokens).2 = tokens := by
  fun_induction valueRun depth tokens <;> simp_all

theorem length_valueRun (depth : Nat) (tokens : List Token) :
    (valueRun depth tokens).1.length + (valueRun depth tokens).2.length = tokens.length := by
  rw [← List.length_append, valueRun_append]

/-- The text of a run of tokens, from the start of the first to the end of the last. -/
def runText : List Token → List Char
  | [] => []
  | token :: rest => token.text ++ rest.flatMap fun later => later.gap ++ later.text

/-- The value of a run that is one identifier. -/
def wordValue (name : String) : Value :=
  if name = "true" then .bool true else if name = "false" then .bool false else .ident name

/-- The key that a token stands for in an object. -/
def keyOf? : TokenKind → Option String
  | .ident name => some name
  | .string value => some value
  | .number literal => some literal
  | _ => none

mutual

/-- The value of a run of tokens. -/
def runValue (run : List Token) : Value :=
  let verbatim : Value := .verbatim (String.ofList (runText run))
  match run with
  | [] => verbatim
  | token :: rest =>
      match token.kind, rest with
      | .string value, [] => .string value
      | .number literal, [] => .number literal
      | .ident name, [] => wordValue name
      | .punct '-', [⟨.number literal, _, _, _⟩] => .number ("-" ++ literal)
      | .punct '\x7b', inside =>
          match objectEntries inside with
          | some (entries, []) => .object entries
          | _ => verbatim
      | .punct '[', inside =>
          match arrayItems inside with
          | some (items, []) => .array items
          | _ => verbatim
      | _, _ => verbatim
termination_by run.length
decreasing_by all_goals exact Nat.lt_succ_self _

/-- The entries of an object behind its opening brace, and the tokens behind its closing brace. -/
def objectEntries (tokens : List Token) : Option (List (String × Value) × List Token) :=
  match tokens with
  | [] => none
  | token :: rest =>
      if token.isPunct '\x7d' then
        some ([], rest)
      else
        match keyOf? token.kind, rest with
        | some key, colon :: rest =>
            if colon.isPunct ':' then
              match _h : valueRun 0 rest with
              | (first :: run, separator :: later) =>
                  let entry := (key, runValue (first :: run))
                  if separator.isPunct ',' then
                    (objectEntries later).map fun (entries, after) => (entry :: entries, after)
                  else if separator.isPunct '\x7d' then
                    some ([entry], later)
                  else
                    none
              | _ => none
            else
              none
        | _, _ => none
termination_by tokens.length
decreasing_by
  all_goals
    have hlength := length_valueRun 0 rest
    simp only [_h, List.length_cons] at hlength
    simp only [List.length_cons]
    omega

/-- The items of an array behind its opening bracket, and the tokens behind its closing bracket. -/
def arrayItems (tokens : List Token) : Option (List Value × List Token) :=
  match tokens with
  | [] => none
  | token :: rest =>
      if token.isPunct ']' then
        some ([], rest)
      else
        match _h : valueRun 0 (token :: rest) with
        | (first :: run, separator :: later) =>
            let item := runValue (first :: run)
            if separator.isPunct ',' then
              (arrayItems later).map fun (items, after) => (item :: items, after)
            else if separator.isPunct ']' then
              some ([item], later)
            else
              none
        | _ => none
termination_by tokens.length
decreasing_by
  all_goals
    have hlength := length_valueRun 0 (token :: rest)
    simp only [_h, List.length_cons] at hlength
    simp only [List.length_cons]
    omega

end

/-- The place where a list of tokens begins, which is `stop` when there are none. -/
def offsetOf (stop : Nat) : List Token → Nat
  | [] => stop
  | token :: _ => token.offset

/-- The arguments of a call behind its opening parenthesis, and the tokens behind its closing
one. -/
def arguments (stop : Nat) (tokens : List Token) :
    Except ExpressionError (List Value × List Token) :=
  match tokens with
  | [] => .error (.expected .value stop)
  | token :: rest =>
      if token.isPunct ')' then
        .ok ([], rest)
      else
        match _h : valueRun 0 (token :: rest) with
        | ([], _) => .error (.expected .value token.offset)
        | (_ :: _, []) => .error (.expected .commaOrClosingParenthesis stop)
        | (first :: run, separator :: later) =>
            let value := runValue (first :: run)
            if separator.isPunct ',' then
              match arguments stop later with
              | .error error => .error error
              | .ok (values, after) => .ok (value :: values, after)
            else if separator.isPunct ')' then
              .ok ([value], later)
            else
              .error (.expected .commaOrClosingParenthesis separator.offset)
termination_by tokens.length
decreasing_by
  have hlength := length_valueRun 0 (token :: rest)
  simp only [_h, List.length_cons] at hlength
  simp only [List.length_cons]
  omega

theorem length_lt_of_arguments {stop : Nat} {tokens later : List Token} {values : List Value}
    (h : arguments stop tokens = .ok (values, later)) : later.length < tokens.length := by
  fun_induction arguments stop tokens generalizing values later with
  | case1 => simp at h
  | case2 token rest _ =>
      simp only [Except.ok.injEq, Prod.mk.injEq] at h
      simp [← h.2]
  | case3 => simp at h
  | case4 => simp at h
  | case5 => simp at h
  | case6 token rest _ first run separator after hrun _ _ _ _ hlater =>
      rename_i ih
      have hlength := length_valueRun 0 (token :: rest)
      simp only [hrun, List.length_cons] at hlength
      simp only [Except.ok.injEq, Prod.mk.injEq] at h
      have hlt := ih hlater
      rw [← h.2]
      simp only [List.length_cons]
      omega
  | case7 token rest _ first run separator after hrun _ _ =>
      have hlength := length_valueRun 0 (token :: rest)
      simp only [hrun, List.length_cons] at hlength
      simp only [Except.ok.injEq, Prod.mk.injEq] at h
      rw [← h.2]
      simp only [List.length_cons]
      omega
  | case8 => simp at h

/-- The tokens behind the angle bracket that closes the outermost of `depth` open ones. -/
def afterAngles? (depth : Nat) : List Token → Option (List Token)
  | [] => none
  | token :: rest =>
      if token.isPunct '<' then
        afterAngles? (depth + 1) rest
      else if token.isPunct '>' then
        if depth ≤ 1 then some rest else afterAngles? (depth - 1) rest
      else
        afterAngles? depth rest

theorem length_le_of_afterAngles? {depth : Nat} {tokens later : List Token}
    (h : afterAngles? depth tokens = some later) : later.length ≤ tokens.length := by
  fun_induction afterAngles? depth tokens with
  | case1 => simp at h
  | case2 depth token rest _ ih => exact Nat.le_succ_of_le (ih h)
  | case3 => simp_all
  | case4 depth token rest _ _ _ ih => exact Nat.le_succ_of_le (ih h)
  | case5 depth token rest _ _ ih => exact Nat.le_succ_of_le (ih h)

/-- The tokens behind a list of type arguments, if there is one here. -/
def skipTypeArguments : List Token → Except ExpressionError (List Token)
  | [] => .ok []
  | token :: rest =>
      if token.isPunct '<' then
        match afterAngles? 1 rest with
        | some later => .ok later
        | none => .error (.unterminatedLiteral token.offset)
      else
        .ok (token :: rest)

theorem length_le_of_skipTypeArguments {tokens later : List Token}
    (h : skipTypeArguments tokens = .ok later) : later.length ≤ tokens.length := by
  unfold skipTypeArguments at h
  split at h
  · cases h
    simp
  · split at h
    · split at h
      · rename_i hafter
        cases h
        exact Nat.le_succ_of_le (length_le_of_afterAngles? hafter)
      · cases h
    · cases h
      simp

/-- The name at the head of the tokens, and the tokens behind it and its type arguments. -/
def callName (stop : Nat) : List Token → Except ExpressionError (String × List Token)
  | ⟨.ident name, _, _, _⟩ :: rest =>
      match skipTypeArguments rest with
      | .ok later => .ok (name, later)
      | .error error => .error error
  | tokens => .error (.expected .identifier (offsetOf stop tokens))

theorem length_lt_of_callName {stop : Nat} {tokens later : List Token} {name : String}
    (h : callName stop tokens = .ok (name, later)) : later.length < tokens.length := by
  unfold callName at h
  split at h
  · split at h
    · rename_i hskip
      cases h
      exact Nat.lt_succ_of_le (length_le_of_skipTypeArguments hskip)
    · cases h
  · cases h

/-- The calls chained behind a call, and the tokens behind them. -/
def chainedCalls (stop : Nat) (tokens : List Token) :
    Except ExpressionError (List Call × List Token) :=
  match tokens with
  | [] => .ok ([], [])
  | token :: rest =>
      if token.isPunct '.' then
        match _hname : callName stop rest with
        | .error error => .error error
        | .ok (name, []) => .ok ([⟨name, []⟩], [])
        | .ok (name, next :: later) =>
            if next.isPunct '(' then
              match _hargs : arguments stop later with
              | .error error => .error error
              | .ok (args, after) =>
                  match chainedCalls stop after with
                  | .error error => .error error
                  | .ok (calls, remaining) => .ok (⟨name, args⟩ :: calls, remaining)
            else
              match chainedCalls stop (next :: later) with
              | .error error => .error error
              | .ok (calls, remaining) => .ok (⟨name, []⟩ :: calls, remaining)
      else
        .ok ([], token :: rest)
termination_by tokens.length
decreasing_by
  · have hname := length_lt_of_callName _hname
    have hargs := length_lt_of_arguments _hargs
    simp only [List.length_cons] at *
    omega
  · have hname := length_lt_of_callName _hname
    simp only [List.length_cons] at *
    omega

/-- The expression at the head of the tokens, and the tokens behind it. -/
def expression (stop : Nat) (tokens : List Token) :
    Except ExpressionError (Expression × List Token) :=
  match callName stop tokens with
  | .error error => .error error
  | .ok (_, []) => .error (.expected .openingParenthesis stop)
  | .ok (name, next :: later) =>
      if next.isPunct '(' then
        match arguments stop later with
        | .error error => .error error
        | .ok (args, after) =>
            match chainedCalls stop after with
            | .error error => .error error
            | .ok (calls, remaining) => .ok (⟨⟨name, args⟩, calls⟩, remaining)
      else
        .error (.expected .openingParenthesis next.offset)

/-- Read a text as a column expression. -/
def parse (text : String) : Except ExpressionError Expression :=
  match tokenize text.toList with
  | .error error => .error error
  | .ok [] => .error .empty
  | .ok tokens =>
      match expression text.utf8ByteSize tokens with
      | .error error => .error error
      | .ok (expr, []) => .ok expr
      | .ok (_, token :: _) => .error (.trailingInput token.offset)

end TableModels.Column
