import TableModels.Enumeration.Declaration
import TableModels.Model.Declaration
import TableModels.Text.Padding

/-! # The target document

A document is a list of lines: a header comment with the settings of the run, the two configuration
blocks, a block for each enumeration and a block for each model. Every line ends with a line feed.

## Implementation notes

Enumerations come in the order of the registry and models in the order given. In an enumeration
block a value that is no identifier keeps its text in a mapping annotation. -/

namespace TableModels

/-- The values written into the head of a document. -/
structure Header where
  title : String := "Prisma Schema (auto-generated)"
  /-- A label of the run that makes the document. -/
  runLabel : String := "schemashift"
  clientProvider : String := "prisma-client-js"
  provider : String := "postgresql"
  /-- The environment variable that holds the address of the database. -/
  urlEnv : String := "DATABASE_URL"
  deriving DecidableEq

namespace Document

/-- The line that rules off the parts of the header comment. -/
def rule : String :=
  "// " ++ String.ofList (List.replicate 76 '=')

/-- The lines before the enumerations. -/
def headerLines (header : Header) (modelCount excludedCount : Nat) : List String := [
  rule,
  "// " ++ header.title,
  rule,
  "// Generated by: schemashift",
  "// Run: " ++ header.runLabel,
  "// Models: " ++ toString modelCount ++ " (excluding " ++ toString excludedCount ++ " tables)",
  rule,
  "",
  "generator client \x7b",
  "  provider = \"" ++ header.clientProvider ++ "\"",
  "\x7d",
  "",
  "datasource db \x7b",
  "  provider = \"" ++ header.provider ++ "\"",
  "  url      = env(\"" ++ header.urlEnv ++ "\")",
  "\x7d"]

/-- The line of an enumeration value. -/
def valueLine (value : String) : String :=
  if isIdentifier value then
    "  " ++ value
  else
    "  " ++ memberName value ++ " @map(\""
      ++ String.ofList (Text.QuotedLiteral.escapeQuotes value.toList) ++ "\")"

/-- The block of an enumeration. -/
def enumLines (declaration : EnumDeclaration) : List String :=
  ("enum " ++ declaration.name ++ " \x7b") :: declaration.values.map valueLine ++ ["\x7d"]

/-- The line of a field: its name, padded to the width of the column, and its definition. -/
def fieldLine (width : Nat) (field : MappedField) : String :=
  "  " ++ Text.padRight width field.name ++ " " ++ field.definition

/-- The line of an index. -/
def indexLine (index : IndexDeclaration) : String :=
  "  " ++ index.render

/-- The line that maps a model to its table. -/
def tableLine (tableName : String) : String :=
  "  @@map(\"" ++ tableName ++ "\")"

/-- The block of a model. -/
def modelLines (width : Nat) (model : ModelDeclaration) : List String :=
  ("/// " ++ model.name) :: ("model " ++ model.name ++ " \x7b")
    :: model.fields.map (fieldLine width) ++ model.indexes.map indexLine
    ++ [tableLine model.tableName, "\x7d"]

/-- The lines of a document. -/
def lines (header : Header) (width : Nat) (enums : List EnumDeclaration)
    (models : List ModelDeclaration) (excludedCount : Nat) : List String :=
  headerLines header models.length excludedCount
    ++ ["", "// Enums"] ++ enums.flatMap (fun declaration => "" :: enumLines declaration)
    ++ ["", "// Models"] ++ models.flatMap (fun model => "" :: modelLines width model)

/-- The text of a list of lines. -/
def ofLines (lines : List String) : String :=
  String.join (lines.map (· ++ "\n"))

/-- The text of a document. -/
def emit (header : Header) (width : Nat) (enums : List EnumDeclaration)
    (models : List ModelDeclaration) (excludedCount : Nat) : String :=
  ofLines (lines header width enums models excludedCount)

end Document

end TableModels
