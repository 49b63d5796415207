import TableModels.Enumeration.Declaration

/-! # Inconsistent models

The ways in which enumerations and models can contradict each other, and the wording of each. -/

namespace TableModels

/-- What makes a set of enumerations and models inconsistent. -/
inductive ModelError where
  /-- An enumeration is defined twice, with different values. -/
  | conflictingEnum (conflict : EnumConflict)
  /-- Two values of an enumeration go by one member name. -/
  | clashingMembers (enumeration first second : String)
  /-- Two models have one name. -/
  | repeatedModel (name : String)
  /-- Two models are mapped to one table. -/
  | sharedTable (table previous name : String)
  /-- Two fields of a model have one name. -/
  | repeatedField (model field : String)
  /-- An index names a column that is no field of its model. -/
  | unknownIndexColumn (model column : String)
  deriving DecidableEq

namespace ModelError

/-- Values as a message lists them. -/
def listed (values : List String) : String :=
  String.intercalate ", " values

/-- The wording of an inconsistency. -/
def message : ModelError → String
  | conflictingEnum ⟨name, existing, incoming⟩ =>
      s!"enum {name} redefined as [{listed incoming}], first declared as [{listed existing}]"
  | clashingMembers enumeration first second =>
      s!"invalid model: enum {enumeration} values \"{first}\" and \"{second}\" both become member "
        ++ memberName second
  | repeatedModel name => s!"invalid model: duplicate model name: {name}"
  | sharedTable table previous name =>
      s!"invalid model: table {table} is mapped by both {previous} and {name}"
  | repeatedField model field => s!"invalid model: duplicate field name: {model}.{field}"
  | unknownIndexColumn model column =>
      s!"invalid model: index column not found: {model}.{column}"

/-- The inconsistency is a conflict between two definitions of an enumeration. -/
def isEnumConflict : ModelError → Bool
  | conflictingEnum _ => true
  | _ => false

end ModelError

end TableModels
