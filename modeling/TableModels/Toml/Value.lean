import TableModels.Json.Value

/-! # Values of a settings file

The values that a TOML document denotes, and the building of its tables. A table remembers how it
came about, because that decides whether it may be opened again: a table that a dotted key or the
header of an inner table has made may get more members, one with a header of its own may not be
opened twice, and an inline table is closed for good. -/

namespace TableModels.Toml

/-- How a table came about. -/
inductive Origin where
  /-- It is written between braces. -/
  | inline
  /-- A dotted key goes through it. -/
  | dotted
  /-- The header of an inner table goes through it. -/
  | implied
  /-- It has a header of its own. -/
  | header
  deriving DecidableEq

/-- A value. -/
inductive Value where
  | string (text : String)
  | integer (value : Int)
  /-- A number that is `mantissa` divided by ten to the power `exponent`, with a fraction or an
  exponent in its text. -/
  | float (mantissa : Int) (exponent : Nat)
  /-- Infinity, or what is not a number. -/
  | special
  | bool (value : Bool)
  /-- A date, a time, or both. -/
  | moment (text : String)
  | array (items : List Value)
  | table (origin : Origin) (members : List (String × Value))
  /-- Tables under one header, of which the last may still get members. -/
  | tables (earlier : List Value) (last : List (String × Value))

/-- The members of a table. -/
abbrev Members := List (String × Value)

/-- The value has no content. -/
def Value.isEmpty : Value → Bool
  | array [] | table _ [] => true
  | _ => false

/-- The value, with one of the options of an enumeration reduced to its name when it is written as
the empty content of a member: the only one of an inline table, or the first one of another. -/
def Value.asChoice : Value → Value
  | table origin ((name, content) :: others) =>
      if content.isEmpty && (origin != .inline || others.isEmpty) then string name
      else table origin ((name, content) :: others)
  | value => value

namespace Members

/-- The members with a change of the table under one key, if there is a table. -/
def mapTable (key : String) (change : Members → Members) (members : Members) : Members :=
  members.map fun (name, value) =>
    match name == key, value with
    | true, .table origin inner => (name, .table origin (change inner))
    | _, value => (name, value)

/-- The members with the options of enumerations under the given keys reduced to their names. -/
def withChoices (keys : List String) (members : Members) : Members :=
  members.map fun (name, value) => (name, if keys.contains name then value.asChoice else value)

/-- The members with another value for a key that is there. -/
def replace (members : Members) (key : String) (value : Value) : Members :=
  members.map fun (name, old) => (name, if name = key then value else old)

/-- The members with a new key, which must not be there. -/
def add? (members : Members) (key : String) (value : Value) : Option Members :=
  if (members.lookup key).isSome then none else some (members ++ [(key, value)])

/-- Change the table that a path leads to, making the tables on the way that are not there. A path
inside a key (`dotted`) does not lead through tables with headers of their own. -/
def changeAt? (dotted : Bool) (change : Origin → Members → Option (Origin × Members)) :
    List String → Origin → Members → Option (Origin × Members)
  | [], origin, members => change origin members
  | key :: path, origin, members =>
      match members.lookup key with
      | none =>
          (changeAt? dotted change path (if dotted then .dotted else .implied) []).map
            fun (made, inner) => (origin, members ++ [(key, .table made inner)])
      | some (.table .inline _) => none
      | some (.table found inner) =>
          if dotted && found == .header then
            none
          else
            (changeAt? dotted change path found inner).map fun (made, inner) =>
              (origin, replace members key (.table made inner))
      | some (.tables earlier last) =>
          (changeAt? dotted change path .header last).map fun (_, inner) =>
            (origin, replace members key (.tables earlier inner))
      | some _ => none

/-- Add a member under a dotted key. The table that gets it must be the one that the key is written
in, or one that dotted keys have made. -/
def insert? (path : List String) (key : String) (value : Value) (origin : Origin)
    (members : Members) : Option (Origin × Members) :=
  changeAt? true
    (fun found inner =>
      if (found == .dotted) == path.isEmpty then none
      else (inner.add? key value).map fun inner => (found, inner))
    path origin members

/-- Open a table under a header. -/
def openTable? (path : List String) (key : String) (members : Members) : Option Members :=
  (changeAt? false
    (fun found inner =>
      match inner.lookup key with
      | none => some (found, inner ++ [(key, .table .header [])])
      | some (.table .implied old) => some (found, replace inner key (.table .header old))
      | some _ => none)
    path .header members).map (·.2)

/-- Open one more table under a header of a list of tables. -/
def openElement? (path : List String) (key : String) (members : Members) : Option Members :=
  (changeAt? false
    (fun found inner =>
      match inner.lookup key with
      | none => some (found, inner ++ [(key, .tables [] [])])
      | some (.tables earlier last) =>
          some (found, replace inner key (.tables (earlier ++ [.table .header last]) []))
      | some _ => none)
    path .header members).map (·.2)

end Members

mutual

/-- A value as a JSON value. A moment becomes an object, a number that JSON cannot hold becomes
null. -/
def Value.toJson : Value → Json
  | .string text => .string text
  | .integer value => .number value 0
  | .float mantissa exponent => .number (mantissa * 10) (exponent + 1)
  | .special => .null
  | .bool value => .bool value
  | .moment text => .object [("moment", .string text)]
  | .array items => .array (itemsToJson items)
  | .table _ members => .object (membersToJson members)
  | .tables earlier last => .array (itemsToJson earlier ++ [.object (membersToJson last)])

/-- Values as JSON values. -/
def itemsToJson : List Value → List Json
  | [] => []
  | item :: rest => item.toJson :: itemsToJson rest

/-- The members of a table as the members of an object. -/
def membersToJson : List (String × Value) → List (String × Json)
  | [] => []
  | (key, value) :: rest => (key, value.toJson) :: membersToJson rest

end

end TableModels.Toml
