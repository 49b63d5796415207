import TableModels.Script.Rule

/-! # Symbols of the script grammar

The constructs of a script that refer to themselves or to one another, and the runs of tokens that
are taken as a whole. -/

namespace TableModels.Script

/-- The symbols of the grammar. -/
inductive Symbol where
  | type
  /-- An expression without commas outside of brackets. -/
  | expression
  | operand
  | arguments
  | template
  | object
  | array
  | parameters
  | block
  | classBody
  | statement

/-- A rule of the script grammar. -/
abbrev ScriptRule := Rule Symbol

/-- The number of tokens up to the one that closes the last of the open brackets, that one
included. -/
def closingSize? (opened : List Token) : List Token → Option Nat
  | [] => none
  | token :: rest =>
      if token.opens then
        (closingSize? (token :: opened) rest).map (· + 1)
      else if token.closes then
        match opened with
        | [] => none
        | [last] => if token.closesWhat last then some 1 else none
        | last :: outer =>
            if token.closesWhat last then (closingSize? outer rest).map (· + 1) else none
      else
        (closingSize? opened rest).map (· + 1)

/-- The number of tokens of the bracket group at the head of the tokens. -/
def groupSize? : List Token → Option Nat
  | [] => none
  | token :: rest => if token.opens then closingSize? [] (token :: rest) else none

/-- The number of tokens up to the angle bracket that closes the last of `depth` open ones, that one
included. -/
def closingAngleSize? (depth : Nat) : List Token → Option Nat
  | [] => none
  | token :: rest =>
      if token.isMark "<" then
        (closingAngleSize? (depth + 1) rest).map (· + 1)
      else if token.isMark ">" then
        if depth ≤ 1 then some 1 else (closingAngleSize? (depth - 1) rest).map (· + 1)
      else
        (closingAngleSize? depth rest).map (· + 1)

/-- The number of tokens of the list in angle brackets at the head of the tokens. -/
def angleSize? : List Token → Option Nat
  | [] => none
  | token :: rest => if token.isMark "<" then closingAngleSize? 0 (token :: rest) else none

namespace ScriptRule

open Rule

/-- A group in brackets, taken as a whole. -/
def group : ScriptRule :=
  run groupSize?

/-- A group in the given brackets, taken as a whole. -/
def groupIn (opening : String) : ScriptRule :=
  seq (ahead (mark opening)) group

/-- A list of type parameters, taken as a whole. -/
def typeParameters : ScriptRule :=
  run angleSize?

/-- One of the given words, provided that a name of a member comes next. -/
def modifier (words : List String) : ScriptRule :=
  seq (token (·.isWordOf words))
    (ahead (token fun next =>
      next.kind == .word || next.kind == .quote || next.kind == .number ||
        next.isMarkOf ["[", "*", "\x7b"]))

end ScriptRule

end TableModels.Script
