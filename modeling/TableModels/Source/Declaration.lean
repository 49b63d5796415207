/-! # Declarations of the source document

What is read from a source document: tables with the fields and index descriptors they declare, and
the lines that could not be read. -/

namespace TableModels

/-- An entry `name: expression` in the field object of a table. -/
structure FieldDeclaration where
  name : String
  expression : String
  line : Nat
  deriving DecidableEq

/-- A table that the source document declares. -/
structure TableDeclaration where
  /-- The name that the table is bound to. -/
  ident : String
  tableName : String
  line : Nat
  fields : List FieldDeclaration
  /-- The text of the index section. -/
  indexBlock : Option String
  /-- The elements of the index section that define indexes. -/
  indexDescriptors : List String
  deriving DecidableEq

/-- A part of the source document that was recognised but could not be read. -/
structure SkippedLine where
  table : String
  line : Nat
  text : String
  deriving DecidableEq

end TableModels
