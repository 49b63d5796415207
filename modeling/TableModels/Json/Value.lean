/-! # JSON values

The values that reports and settings are recorded in, and the reading of records, options and tagged
variants out of them. A record is an object; the array of its fields in order is read as well.

## Implementation notes

A number is `mantissa` divided by ten to the power `exponent`. An integer is written with exponent
zero, and only such a number is read as one. -/

namespace TableModels

/-- A JSON value. -/
inductive Json where
  | null
  | bool (value : Bool)
  | number (mantissa : Int) (exponent : Nat)
  | string (value : String)
  | array (items : List Json)
  | object (members : List (String × Json))

namespace Json

/-- The value of a natural number. -/
def ofNat (n : Nat) : Json :=
  number n 0

/-- The value of a list of strings. -/
def ofStrings (values : List String) : Json :=
  array (values.map string)

/-- The value of an optional string, which is null when there is none. -/
def ofString? : Option String → Json
  | some value => string value
  | none => null

/-- Read a string. -/
def string? : Json → Option String
  | string value => some value
  | _ => none

/-- Read a truth value. -/
def bool? : Json → Option Bool
  | bool value => some value
  | _ => none

/-- Read a natural number below a bound. -/
def natBelow? (bound : Nat) : Json → Option Nat
  | number (.ofNat n) 0 => if n < bound then some n else none
  | _ => none

/-- Read a count, which is a natural number that 64 bits hold. -/
def count? : Json → Option Nat :=
  natBelow? UInt64.size

/-- Read an unsigned number of 32 bits. -/
def uint32? (json : Json) : Option UInt32 :=
  (natBelow? UInt32.size json).map UInt32.ofNat

/-- Read an array, each item alike. -/
def arrayOf? {α : Type} (item : Json → Option α) : Json → Option (List α)
  | array items => items.mapM item
  | _ => none

/-- Read a list of strings. -/
def strings? : Json → Option (List String) :=
  arrayOf? string?

/-- Read a string that may be null. -/
def nullableString? : Json → Option (Option String)
  | null => some none
  | json => (string? json).map some

/-- The fields of a record that requires all of them, in the order of `names`. -/
def record? (names : List String) : Json → Option (List (Option Json))
  | object members => some (names.map fun name => members.lookup name)
  | array items => if items.length = names.length then some (items.map some) else none
  | _ => none

/-- The fields of a record that has defaults for them, in the order of `names`. -/
def partialRecord? (names : List String) : Json → Option (List (Option Json))
  | object members => some (names.map fun name => members.lookup name)
  | array items =>
      if items.length ≤ names.length then
        some (items.map some ++ List.replicate (names.length - items.length) none)
      else
        none
  | _ => none

/-- Read a field, which takes a default when it is absent. -/
def fieldOr {α : Type} (default : α) (read : Json → Option α) : Option Json → Option α
  | none => some default
  | some json => read json

/-- Read a field that may be absent or null. -/
def nullableField? : Option Json → Option (Option String)
  | none => some none
  | some json => nullableString? json

/-- Read one of the options of an enumeration, given by its name. -/
def choice? {α : Type} (named : String → Option α) : Json → Option α
  | string name => named name
  | object [(name, null)] => named name
  | _ => none

/-- The value of a tagged variant without content. -/
def tag (kind : String) : Json :=
  object [("kind", string kind)]

/-- The value of a tagged variant with content. -/
def tagged (kind : String) (content : Json) : Json :=
  object [("kind", string kind), ("value", content)]

/-- The tag of a variant with its content, if it has one. -/
def variant? : Json → Option (String × Option Json)
  | object members =>
      match members.lookup "kind" with
      | some (string kind) => some (kind, members.lookup "value")
      | _ => none
  | array [string kind, content] => some (kind, some content)
  | _ => none

/-- A variant without content is given no content, or null. -/
def isUnit : Option Json → Bool
  | none | some null => true
  | _ => false

end Json

end TableModels
