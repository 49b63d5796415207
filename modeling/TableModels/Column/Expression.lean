/-! # Column expressions

A column expression is a type call followed by chained calls, such as
`varchar("email", { length: 320 }).notNull().unique()`. An argument is a literal value, or the text
of an expression that is no literal, kept verbatim. -/

namespace TableModels.Column

/-- An argument of a call. -/
inductive Value where
  | string (value : String)
  /-- A number as it is written, without underscores. -/
  | number (literal : String)
  | bool (value : Bool)
  | ident (name : String)
  | object (entries : List (String × Value))
  | array (items : List Value)
  /-- The text of an expression that is no literal. -/
  | verbatim (text : String)

/-- A call, or a bare member, which has no arguments. -/
structure Call where
  name : String
  args : List Value

/-- A type call and the calls chained to it, in the order of the source. -/
structure Expression where
  base : Call
  chain : List Call

namespace Value

/-- The content of a string. -/
def string? : Value → Option String
  | string value => some value
  | _ => none

theorem string?_eq_some_iff {value : Value} {text : String} :
    value.string? = some text ↔ value = .string text := by
  cases value <;> simp [string?]

/-- The first entry under a key of an object. -/
def valueAt? (value : Value) (key : String) : Option Value :=
  match value with
  | object entries => entries.lookup key
  | _ => none

/-- The value is an object. -/
def isObject : Value → Bool
  | object _ => true
  | _ => false

/-- The number that decimal digits denote. -/
def natOfDigits (digits : List Char) : Nat :=
  digits.foldl (fun n c => 10 * n + (c.toNat - '0'.toNat)) 0

/-- A text of one or more decimal digits, as the number it denotes, if 32 bits hold it. -/
def uint32OfDigits? (digits : List Char) : Option UInt32 :=
  if digits ≠ [] ∧ digits.all Char.isDigit then
    let n := natOfDigits digits
    if n < UInt32.size then some (UInt32.ofNat n) else none
  else
    none

/-- A number literal that is an unsigned 32-bit integer. -/
def uint32? : Value → Option UInt32
  | number literal => uint32OfDigits? literal.toList
  | _ => none

end Value

namespace Expression

/-- The first chained call of a name. -/
def modifier? (expr : Expression) (name : String) : Option Call :=
  expr.chain.find? (·.name == name)

/-- A call of the name is chained. -/
def has (expr : Expression) (name : String) : Bool :=
  (expr.modifier? name).isSome

/-- The column name, which is a string given as first argument of the type call. -/
def columnName? (expr : Expression) : Option String :=
  expr.base.args.head?.bind Value.string?

/-- An entry of the first object among the arguments of the type call. -/
def option? (expr : Expression) (key : String) : Option Value :=
  (expr.base.args.find? Value.isObject).bind (·.valueAt? key)

/-- The first argument of the first `default` call. -/
def default? (expr : Expression) : Option Value :=
  (expr.modifier? "default").bind (·.args.head?)

end Expression

end TableModels.Column
