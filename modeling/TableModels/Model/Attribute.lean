import TableModels.Text.QuotedLiteral

/-! # Attributes of target fields

The attributes that follow the type of a field, and their text in the target document. A string
inside an attribute is a quoted literal. -/

namespace TableModels

/-- An attribute of a target field. -/
inductive Attribute where
  | id
  | defaultAutoincrement
  | defaultUuid
  | defaultInt (literal : String)
  | defaultString (value : String)
  | defaultBool (value : Bool)
  | defaultDecimal (literal : String)
  /-- A default that is a member of the enumeration of the field. -/
  | defaultEnum (member : String)
  | defaultNow
  /-- The time of creation as default, renewed on every update. -/
  | defaultNowUpdatedAt
  | updatedAt
  | unique
  | varChar (length : UInt32)
  | char (length : UInt32)
  | decimalPrecision (precision scale : UInt32)
  | uuid
  /-- The name of the column, when it differs from the name of the field. -/
  | map (column : String)
  deriving DecidableEq

namespace Attribute

/-- The text of an attribute in the target document. -/
def render : Attribute → String
  | id => "@id"
  | defaultAutoincrement => "@default(autoincrement())"
  | defaultUuid => "@default(uuid())"
  | defaultInt literal => "@default(" ++ literal ++ ")"
  | defaultString value => "@default(" ++ Text.QuotedLiteral.write value ++ ")"
  | defaultBool true => "@default(true)"
  | defaultBool false => "@default(false)"
  | defaultDecimal literal => "@default(" ++ literal ++ ")"
  | defaultEnum member => "@default(" ++ member ++ ")"
  | defaultNow => "@default(now())"
  | defaultNowUpdatedAt => "@default(now()) @updatedAt"
  | updatedAt => "@updatedAt"
  | unique => "@unique"
  | varChar length => "@db.VarChar(" ++ toString length.toNat ++ ")"
  | char length => "@db.Char(" ++ toString length.toNat ++ ")"
  | decimalPrecision precision scale =>
      "@db.Decimal(" ++ toString precision.toNat ++ ", " ++ toString scale.toNat ++ ")"
  | uuid => "@db.Uuid"
  | map column => "@map(" ++ Text.QuotedLiteral.write column ++ ")"

end Attribute

end TableModels
