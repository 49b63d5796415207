import TableModels.Model.Field

/-! # Target models

A model is made from one table: it has fields, indexes over them, and the name of the table that it
is mapped to. -/

namespace TableModels

/-- Whether an index also forbids repeated values. -/
inductive IndexKind where
  | index
  | unique
  deriving DecidableEq

/-- An index over fields of a model, under an optional name. -/
structure IndexDeclaration where
  kind : IndexKind
  name : Option String
  fields : List String
  deriving DecidableEq

namespace IndexDeclaration

/-- The word that opens an index of the kind. -/
def keyword : IndexKind → String
  | .index => "@@index"
  | .unique => "@@unique"

/-- The text of an index in the target document. -/
def render (index : IndexDeclaration) : String :=
  let columns := keyword index.kind ++ "([" ++ String.intercalate ", " index.fields ++ "]"
  match index.name with
  | some name => columns ++ ", map: " ++ Text.QuotedLiteral.write name ++ ")"
  | none => columns ++ ")"

end IndexDeclaration

/-- A model of the target document, made from the table bound to `sourceIdent`. -/
structure ModelDeclaration where
  name : String
  sourceIdent : String
  tableName : String
  fields : List MappedField
  indexes : List IndexDeclaration
  deriving DecidableEq

namespace ModelDeclaration

/-- The first field of a name. -/
def field? (model : ModelDeclaration) (name : String) : Option MappedField :=
  model.fields.find? (·.name == name)

/-- The names of the fields, in order. -/
def fieldNames (model : ModelDeclaration) : List String :=
  model.fields.map (·.name)

end ModelDeclaration

end TableModels
