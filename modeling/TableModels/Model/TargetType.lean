/-! # Types of target fields

A field of a model has a scalar type, the type of an enumeration, or, when no rule maps its
expression, a type that stands in for it and keeps the expression. -/

namespace TableModels

/-- The type of a target field. -/
inductive TargetType where
  | int
  | bigInt
  | string
  | boolean
  | decimal
  | json
  | dateTime
  /-- A registered enumeration, by its canonical name. -/
  | enumeration (name : String)
  /-- The type of a field whose expression `raw` no rule maps. -/
  | unmapped (raw : String)
  deriving DecidableEq

namespace TargetType

/-- The name of the type in the target document, where an unmapped field is a string. -/
def name : TargetType → String
  | int => "Int"
  | bigInt => "BigInt"
  | string => "String"
  | boolean => "Boolean"
  | decimal => "Decimal"
  | json => "Json"
  | dateTime => "DateTime"
  | enumeration name => name
  | unmapped _ => "String"

/-- The expression that no rule maps, for an unmapped type. -/
def raw? : TargetType → Option String
  | unmapped raw => some raw
  | _ => none

/-- The type stands in for an expression that no rule maps. -/
def isUnmapped (type : TargetType) : Bool :=
  type.raw?.isSome

end TargetType

end TableModels
