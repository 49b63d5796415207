import TableModels.Json.Value
import TableModels.Source.Declaration

/-! # Source declarations as JSON

Writing tables, their fields and skipped lines as JSON values and reading them back. -/

namespace TableModels

namespace FieldDeclaration

/-- The value of a field declaration. -/
def toJson (field : FieldDeclaration) : Json :=
  .object [
    ("name", .string field.name),
    ("expression", .string field.expression),
    ("line", .ofNat field.line)]

/-- Read a field declaration. -/
def ofJson? (json : Json) : Option FieldDeclaration := do
  match ← json.record? ["name", "expression", "line"] with
  | [name, expression, line] =>
      let name ← name.bind Json.string?
      let expression ← expression.bind Json.string?
      let line ← line.bind Json.count?
      return ⟨name, expression, line⟩
  | _ => none

end FieldDeclaration

namespace TableDeclaration

/-- The value of a table declaration. -/
def toJson (table : TableDeclaration) : Json :=
  .object [
    ("ident", .string table.ident),
    ("table_name", .string table.tableName),
    ("line", .ofNat table.line),
    ("fields", .array (table.fields.map FieldDeclaration.toJson)),
    ("index_block", .ofString? table.indexBlock),
    ("index_descriptors", .ofStrings table.indexDescriptors)]

/-- Read a table declaration. -/
def ofJson? (json : Json) : Option TableDeclaration := do
  match ← json.record?
      ["ident", "table_name", "line", "fields", "index_block", "index_descriptors"] with
  | [ident, tableName, line, fields, indexBlock, indexDescriptors] =>
      let ident ← ident.bind Json.string?
      let tableName ← tableName.bind Json.string?
      let line ← line.bind Json.count?
      let fields ← fields.bind (Json.arrayOf? FieldDeclaration.ofJson?)
      let indexBlock ← Json.nullableField? indexBlock
      let indexDescriptors ← indexDescriptors.bind Json.strings?
      return ⟨ident, tableName, line, fields, indexBlock, indexDescriptors⟩
  | _ => none

end TableDeclaration

namespace SkippedLine

/-- The value of a skipped line. -/
def toJson (skipped : SkippedLine) : Json :=
  .object [
    ("table", .string skipped.table),
    ("line", .ofNat skipped.line),
    ("text", .string skipped.text)]

/-- Read a skipped line. -/
def ofJson? (json : Json) : Option SkippedLine := do
  match ← json.record? ["table", "line", "text"] with
  | [table, line, text] =>
      let table ← table.bind Json.string?
      let line ← line.bind Json.count?
      let text ← text.bind Json.string?
      return ⟨table, line, text⟩
  | _ => none

end SkippedLine

end TableModels
