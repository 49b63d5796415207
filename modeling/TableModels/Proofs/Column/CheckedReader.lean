import Mathlib.Data.Nat.PSub
import TableModels.Proofs.Column.CheckedScanning

/-!
# A reader of expressions that checks what it does

Expressions can be read with a position that moves over the places of the tokens, with counts of
open brackets, and with texts cut out between byte offsets. `checkedParse` reads in this way. It
checks each index, each count that is made smaller and each cut, and also that every round of a loop
moves on, which is why its recursion ends.

## Implementation notes

A position and the tokens from there on are tied by `position`. What is at a position is then told
by the first of these tokens.
-/

namespace TableModels.Column

open Checked

/-- The token is the given punctuation character. -/
def Span.isPunct (span : Span) (c : Char) : Bool :=
  span.kind == .punct c

/-- The token opens a bracket. -/
def Span.opens (span : Span) : Bool :=
  span.isPunct '(' || span.isPunct '[' || span.isPunct '{'

/-- The token closes a bracket. -/
def Span.closes (span : Span) : Bool :=
  span.isPunct ')' || span.isPunct ']' || span.isPunct '}'

/-- A result, or nothing where there has been an error. -/
def Checked.optional {α : Type} (result : Checked α) : Checked (Option α) :=
  ExceptT.mk (result.run.map fun outcome => .ok outcome.toOption)

section Positions

variable (text : String) (spans : List Span)

/-- The token at a position is the given punctuation character. -/
def isPunctAt (pos : Nat) (c : Char) : Bool :=
  spans[pos]?.any (·.isPunct c)

/-- A value may end in front of a position. -/
def endsAt (pos : Nat) : Bool :=
  spans[pos]?.all fun span => span.closes || span.isPunct ','

/-- The byte offset at a position, which is that of the end of the text behind the last token. -/
def startAt (pos : Nat) : Nat :=
  spans[pos]?.elim text.utf8ByteSize Span.start

/-! ### Values -/

/-- The position of the next comma or closing bracket outside of brackets, inside `depth` brackets
that are already open. -/
def runEnd (depth pos : Nat) : Checked Nat := do
  if h : pos < spans.length then
    if spans[pos].opens then
      runEnd (depth + 1) (pos + 1)
    else if spans[pos].closes then
      if depth = 0 then
        return pos
      else
        let outer ← check depth.ppred
        runEnd outer (pos + 1)
    else if depth = 0 ∧ spans[pos].isPunct ',' then
      return pos
    else
      runEnd depth (pos + 1)
  else
    return pos
termination_by spans.length - pos

/-- The text from a position up to the next place at which a value may end, and the position of that
place. -/
def verbatimAt (pos : Nat) : Checked (Value × Nat) := do
  let stop ← runEnd spans 0 pos
  if stop = pos then
    throw (.expected .value (startAt text spans pos))
  else
    let first ← check spans[pos]?
    let behind ← check stop.ppred
    let last ← check spans[behind]?
    let part ← check (slice? text first.start last.stop)
    return (.verbatim part, stop)

mutual

/-- The value at a position, and the position behind it. -/
def valueAt (pos : Nat) : Checked (Value × Nat) := do
  match ← literalAt pos with
  | some (value, next) =>
      if endsAt spans next then return (value, next) else verbatimAt text spans pos
  | none => verbatimAt text spans pos
termination_by (spans.length - pos, 1)

/-- The literal at a position, and the position behind it. -/
def literalAt (pos : Nat) : Checked (Option (Value × Nat)) := do
  if h : pos < spans.length then
    match spans[pos].kind with
    | .string value => return some (.string value, pos + 1)
    | .number literal => return some (.number literal, pos + 1)
    | .ident name => return some (wordValue name, pos + 1)
    | .punct '-' =>
        match spans[pos + 1]?.map Span.kind with
        | some (.number literal) => return some (.number ("-" ++ literal), pos + 2)
        | _ => return none
    | .punct '\x7b' =>
        let entries? ← entriesAt (pos + 1)
        return entries?.map fun (entries, next) => (.object entries, next)
    | .punct '[' =>
        let items? ← itemsAt (pos + 1)
        return items?.map fun (items, next) => (.array items, next)
    | _ => return none
  else
    return none
termination_by (spans.length - pos, 0)

/-- The entries of an object from a position on, and the position behind its closing brace. -/
def entriesAt (pos : Nat) : Checked (Option (List (String × Value) × Nat)) := do
  if h : pos < spans.length then
    if spans[pos].isPunct '\x7d' then
      return some ([], pos + 1)
    else
      match keyOf? spans[pos].kind with
      | some key =>
          if isPunctAt spans (pos + 1) ':' then
            match ← optional (valueAt (pos + 2)) with
            | some (value, next) =>
                if hnext : pos < next then
                  if isPunctAt spans next ',' then
                    let others? ← entriesAt (next + 1)
                    return others?.map fun (others, after) => ((key, value) :: others, after)
                  else if isPunctAt spans next '\x7d' then
                    let others? ← entriesAt next
                    return others?.map fun (others, after) => ((key, value) :: others, after)
                  else
                    return none
                else
                  fault
            | none => return none
          else
            return none
      | none => return none
  else
    return none
termination_by (spans.length - pos, 2)

/-- The items of an array from a position on, and the position behind its closing bracket. -/
def itemsAt (pos : Nat) : Checked (Option (List Value × Nat)) := do
  if isPunctAt spans pos ']' then
    return some ([], pos + 1)
  else
    match ← optional (valueAt pos) with
    | some (value, next) =>
        if hnext : pos < spans.length ∧ pos < next then
          if isPunctAt spans next ',' then
            let others? ← itemsAt (next + 1)
            return others?.map fun (others, after) => (value :: others, after)
          else if isPunctAt spans next ']' then
            let others? ← itemsAt next
            return others?.map fun (others, after) => (value :: others, after)
          else
            return none
        else
          fault
    | none => return none
termination_by (spans.length - pos, 2)

end

/-! ### Calls -/

/-- The arguments of a call from a position on, and the position behind its closing parenthesis. -/
def argumentsAt (pos : Nat) : Checked (List Value × Nat) := do
  if isPunctAt spans pos ')' then
    return ([], pos + 1)
  else
    let (value, next) ← valueAt text spans pos
    if _hnext : pos < spans.length ∧ pos < next then
      if isPunctAt spans next ',' then
        let (values, after) ← argumentsAt (next + 1)
        return (value :: values, after)
      else if isPunctAt spans next ')' then
        let (values, after) ← argumentsAt next
        return (value :: values, after)
      else
        throw (.expected .commaOrClosingParenthesis (startAt text spans next))
    else
      fault
termination_by spans.length - pos

/-- The position behind the angle bracket that closes the outermost of `depth` open ones. -/
def anglesEnd (depth pos : Nat) : Checked (Option Nat) := do
  if h : pos < spans.length then
    if spans[pos].isPunct '<' then
      anglesEnd (depth + 1) (pos + 1)
    else if spans[pos].isPunct '>' then
      let outer ← check depth.ppred
      if outer = 0 then return some (pos + 1) else anglesEnd outer (pos + 1)
    else
      anglesEnd depth (pos + 1)
  else
    return none
termination_by spans.length - pos

/-- The position behind a list of type arguments, if there is one here. -/
def typeArgumentsEnd (pos : Nat) : Checked Nat := do
  if isPunctAt spans pos '<' then
    match ← anglesEnd spans 0 pos with
    | some next => return next
    | none => throw (.unterminatedLiteral (startAt text spans pos))
  else
    return pos

/-- The name at a position, and the position behind it and its type arguments. -/
def callNameAt (pos : Nat) : Checked (String × Nat) := do
  match spans[pos]?.map Span.kind with
  | some (.ident name) =>
      let next ← typeArgumentsEnd text spans (pos + 1)
      return (name, next)
  | _ => throw (.expected .identifier (startAt text spans pos))

/-- The arguments of a call whose name is in front of a position, and the position behind them. -/
def argumentsBehindAt (pos : Nat) : Checked (List Value × Nat) :=
  if isPunctAt spans pos '(' then argumentsAt text spans (pos + 1) else pure ([], pos)

/-- The calls chained from a position on, and the position behind them. -/
def chainAt (pos : Nat) : Checked (List Call × Nat) := do
  if isPunctAt spans pos '.' then
    let (name, next) ← callNameAt text spans (pos + 1)
    let (args, behind) ← argumentsBehindAt text spans next
    if _hnext : pos < spans.length ∧ pos < behind then
      let (calls, after) ← chainAt behind
      return (⟨name, args⟩ :: calls, after)
    else
      fault
  else
    return ([], pos)
termination_by spans.length - pos

/-- The expression at a position, and the position behind it. -/
def expressionAt (pos : Nat) : Checked (Expression × Nat) := do
  let (name, next) ← callNameAt text spans pos
  if isPunctAt spans next '(' then
    let (args, behind) ← argumentsAt text spans (next + 1)
    let (calls, after) ← chainAt text spans behind
    return (⟨⟨name, args⟩, calls⟩, after)
  else
    throw (.expected .openingParenthesis (startAt text spans next))

end Positions

/-- Read a text as a column expression, with checks. -/
def checkedParse (text : String) : Checked Expression := do
  let spans ← scan text
  if spans.isEmpty then
    throw .empty
  else
    let (expr, next) ← expressionAt text spans 0
    match spans[next]? with
    | some span => throw (.trailingInput span.start)
    | none => return expr

/-! ### Positions -/

/-- The position at which the tokens that are left begin. -/
def position (tokens later : List Token) : Nat :=
  tokens.length - later.length

section Position

variable {tokens later rest after run : List Token} {token : Token}

theorem getElem?_position (h : later <:+ tokens) :
    (tokens.map Token.span)[position tokens later]? = later.head?.map Token.span := by
  rw [List.getElem?_map, position, ← List.head?_drop, ← List.suffix_iff_eq_drop.1 h]

theorem position_append (h : run ++ after <:+ tokens) :
    position tokens (run ++ after) + run.length = position tokens after := by
  have hle := h.length_le
  rw [List.length_append] at hle
  simp only [position, List.length_append]
  omega

theorem position_cons (h : token :: rest <:+ tokens) :
    position tokens (token :: rest) + 1 = position tokens rest := by
  rw [← List.singleton_append] at h
  exact position_append h

theorem position_lt (h : later <:+ tokens) (hlt : after.length < later.length) :
    position tokens later < position tokens after := by
  have hle := h.length_le
  simp only [position]
  omega

theorem exists_getElem_position (h : token :: rest <:+ tokens) :
    ∃ hlt : position tokens (token :: rest) < (tokens.map Token.span).length,
      (tokens.map Token.span)[position tokens (token :: rest)] = token.span :=
  List.getElem?_eq_some_iff.1 (getElem?_position h)

theorem not_position_nil_lt (tokens : List Token) :
    ¬ position tokens [] < (tokens.map Token.span).length := by
  rw [List.length_map, position, List.length_nil, Nat.sub_zero]
  exact Nat.lt_irrefl _

theorem isPunctAt_cons (h : token :: rest <:+ tokens) (c : Char) :
    isPunctAt (tokens.map Token.span) (position tokens (token :: rest)) c = token.isPunct c := by
  rw [isPunctAt, getElem?_position h]
  rfl

theorem isPunctAt_nil (tokens : List Token) (c : Char) :
    isPunctAt (tokens.map Token.span) (position tokens []) c = false := by
  rw [isPunctAt, getElem?_position List.nil_suffix]
  rfl

theorem endsAt_position (h : later <:+ tokens) :
    endsAt (tokens.map Token.span) (position tokens later) = endsValue later := by
  rw [endsAt, getElem?_position h]
  cases later <;> rfl

theorem startAt_position (text : String) (h : later <:+ tokens) :
    startAt text (tokens.map Token.span) (position tokens later) =
      offsetOf text.utf8ByteSize later := by
  rw [startAt, getElem?_position h]
  cases later <;> rfl

end Position

/-- What has been found, with the position of the tokens that are left. -/
def located {α : Type} (tokens : List Token) (found : Option (α × List Token)) : Option (α × Nat) :=
  found.map fun (value, after) => (value, position tokens after)

/-- The value that has been found, or else the error that there is none. -/
def orExpected (text : String) (tokens later : List Token) (found : Option (Value × List Token)) :
    Except ExpressionError (Value × Nat) :=
  match located tokens found with
  | some value => .ok value
  | none => .error (.expected .value (offsetOf text.utf8ByteSize later))

/-- What has been read, with the position of the tokens that are left. -/
def locatedRead {α : Type} (tokens : List Token)
    (result : Except ExpressionError (α × List Token)) : Except ExpressionError (α × Nat) :=
  result.map fun (value, after) => (value, position tokens after)

end TableModels.Column
