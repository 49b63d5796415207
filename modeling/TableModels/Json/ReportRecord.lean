import TableModels.Conversion.Report
import TableModels.Json.ModelRecord
import TableModels.Json.SourceRecord

/-! # Reports as JSON

Writing reports as JSON values and reading them back. -/

namespace TableModels

namespace ModelSummary

/-- The value of the entry of a model. -/
def toJson (summary : ModelSummary) : Json :=
  .object [
    ("model", .string summary.model),
    ("table", .string summary.table),
    ("fields", .ofNat summary.fields)]

/-- Read the entry of a model. -/
def ofJson? (json : Json) : Option ModelSummary := do
  match ← json.record? ["model", "table", "fields"] with
  | [model, table, fields] =>
      let model ← model.bind Json.string?
      let table ← table.bind Json.string?
      let fields ← fields.bind Json.count?
      return ⟨model, table, fields⟩
  | _ => none

end ModelSummary

namespace UnmappedField

/-- The value of the entry of an unmapped field. -/
def toJson (field : UnmappedField) : Json :=
  .object [
    ("model", .string field.model),
    ("field", .string field.field),
    ("expression", .string field.expression)]

/-- Read the entry of an unmapped field. -/
def ofJson? (json : Json) : Option UnmappedField := do
  match ← json.record? ["model", "field", "expression"] with
  | [model, field, expression] =>
      let model ← model.bind Json.string?
      let field ← field.bind Json.string?
      let expression ← expression.bind Json.string?
      return ⟨model, field, expression⟩
  | _ => none

end UnmappedField

namespace UnparsedIndex

/-- The value of the entry of an index descriptor. -/
def toJson (index : UnparsedIndex) : Json :=
  .object [("model", .string index.model), ("descriptor", .string index.descriptor)]

/-- Read the entry of an index descriptor. -/
def ofJson? (json : Json) : Option UnparsedIndex := do
  match ← json.record? ["model", "descriptor"] with
  | [model, text] =>
      let model ← model.bind Json.string?
      let text ← text.bind Json.string?
      return ⟨model, text⟩
  | _ => none

end UnparsedIndex

namespace ConversionReport

/-- The value of a report. -/
def toJson (report : ConversionReport) : Json :=
  .object [
    ("dialect", .string report.dialect),
    ("models", .array (report.models.map ModelSummary.toJson)),
    ("enums", .ofStrings report.enums),
    ("excluded_tables", .ofStrings report.excludedTables),
    ("skipped_lines", .array (report.skippedLines.map SkippedLine.toJson)),
    ("unmapped_fields", .array (report.unmappedFields.map UnmappedField.toJson)),
    ("unparsed_indexes", .array (report.unparsedIndexes.map UnparsedIndex.toJson)),
    ("enum_conflicts", .array (report.enumConflicts.map EnumConflict.toJson)),
    ("repaired_blocks", .ofNat report.repairedBlocks),
    ("document_fingerprint", .string report.documentFingerprint)]

/-- The names of the fields of a report. -/
def fieldNames : List String := [
  "dialect", "models", "enums", "excluded_tables", "skipped_lines", "unmapped_fields",
  "unparsed_indexes", "enum_conflicts", "repaired_blocks", "document_fingerprint"]

/-- Read a report. -/
def ofJson? (json : Json) : Option ConversionReport := do
  match ← json.record? fieldNames with
  | [dialect, models, enums, excludedTables, skippedLines, unmappedFields, unparsedIndexes,
      enumConflicts, repairedBlocks, documentFingerprint] =>
      let dialect ← dialect.bind Json.string?
      let models ← models.bind (Json.arrayOf? ModelSummary.ofJson?)
      let enums ← enums.bind Json.strings?
      let excludedTables ← excludedTables.bind Json.strings?
      let skippedLines ← skippedLines.bind (Json.arrayOf? SkippedLine.ofJson?)
      let unmappedFields ← unmappedFields.bind (Json.arrayOf? UnmappedField.ofJson?)
      let unparsedIndexes ← unparsedIndexes.bind (Json.arrayOf? UnparsedIndex.ofJson?)
      let enumConflicts ← enumConflicts.bind (Json.arrayOf? EnumConflict.ofJson?)
      let repairedBlocks ← repairedBlocks.bind Json.count?
      let documentFingerprint ← documentFingerprint.bind Json.string?
      return {
        dialect, models, enums, excludedTables, skippedLines, unmappedFields, unparsedIndexes,
        enumConflicts, repairedBlocks, documentFingerprint }
  | _ => none

end ConversionReport

end TableModels
