import TableModels.Conversion.Assembly
import TableModels.Conversion.Options
import TableModels.Conversion.Report
import TableModels.Document.Repair
import TableModels.Model.Validation
import TableModels.Source.TableReading
import TableModels.Text.Fingerprint

/-! # From tables to a document

The tables of a document are taken in order. An excluded table leaves only its name; of any other
table the fields are mapped, with one registry of enumerations going through all of them, and its
model is assembled. The models are checked together, the document is written and repaired, and the
report says what was done. -/

namespace TableModels

/-- A document with the report on how it was made. -/
structure Conversion where
  document : String
  report : ConversionReport
  deriving DecidableEq

/-- What becomes of a table. -/
inductive TableOutcome where
  | excluded (ident : String)
  | kept (assembled : Assembled)

namespace TableOutcome

/-- The name of an excluded table. -/
def excluded? : TableOutcome → Option String
  | excluded ident => some ident
  | kept _ => none

/-- The assembled model of a kept table. -/
def kept? : TableOutcome → Option Assembled
  | excluded _ => none
  | kept assembled => some assembled

end TableOutcome

namespace Conversion

/-- The outcome of a table, with the registry afterwards. -/
def tableOutcome (options : ConversionOptions) (dialect : Dialect) (registry : EnumRegistry)
    (table : TableDeclaration) : Except ModelError (TableOutcome × EnumRegistry) :=
  if options.exclude.contains table.ident then
    .ok (.excluded table.ident, registry)
  else
    match Mapping.mapFields dialect options.identity registry table.fields with
    | .error error => .error error
    | .ok (fields, after) => .ok (.kept (assemble options.auditFields table fields), after)

/-- The outcomes of the tables in order, with the registry after the last. -/
def tableOutcomes (options : ConversionOptions) (dialect : Dialect) (registry : EnumRegistry) :
    List TableDeclaration → Except ModelError (List TableOutcome × EnumRegistry)
  | [] => .ok ([], registry)
  | table :: rest =>
      match tableOutcome options dialect registry table with
      | .error error => .error error
      | .ok (outcome, after) =>
          match tableOutcomes options dialect after rest with
          | .error error => .error error
          | .ok (outcomes, last) => .ok (outcome :: outcomes, last)

/-- The entry of a model in the report. -/
def modelSummary (model : ModelDeclaration) : ModelSummary :=
  ⟨model.name, model.tableName, model.fields.length⟩

/-- The unmapped fields of a model. -/
def unmappedFields (model : ModelDeclaration) : List UnmappedField :=
  model.fields.filterMap fun field =>
    field.fieldType.raw?.map fun raw => ⟨model.name, field.name, raw⟩

/-- The entries of the index descriptors that declare no index. -/
def unparsedIndexes (assembled : Assembled) : List UnparsedIndex :=
  assembled.unparsedIndexes.map fun text => ⟨assembled.model.name, text⟩

/-- The conversion that the outcomes of all tables lead to. -/
def ofOutcomes (options : ConversionOptions) (extraction : Extraction)
    (outcomes : List TableOutcome) (registry : EnumRegistry) : Except ModelError Conversion :=
  let assembled := outcomes.filterMap TableOutcome.kept?
  let excluded := outcomes.filterMap TableOutcome.excluded?
  let models := assembled.map (·.model)
  match validateModels models with
  | .error error => .error error
  | .ok () =>
      let emitted :=
        Document.emit options.header options.columnWidth registry.entries models excluded.length
      let repaired := Document.repair emitted
      .ok {
        document := repaired.text
        report :=
          { dialect := extraction.dialect.name
            models := models.map modelSummary
            enums := registry.entries.map (·.name)
            excludedTables := excluded
            skippedLines := extraction.skipped
            unmappedFields := models.flatMap unmappedFields
            unparsedIndexes := assembled.flatMap unparsedIndexes
            enumConflicts := registry.conflicts
            repairedBlocks := repaired.repaired
            documentFingerprint := Text.fingerprint repaired.text } }

/-- Convert what has been extracted from a document. -/
def ofExtraction (options : ConversionOptions) (extraction : Extraction) :
    Except ModelError Conversion :=
  match tableOutcomes options extraction.dialect (.empty options.enumConflict)
      extraction.tables with
  | .error error => .error error
  | .ok (outcomes, registry) => ofOutcomes options extraction outcomes registry

/-- Convert a source document. -/
def ofSource (options : ConversionOptions) (source : String) : Except ModelError Conversion :=
  ofExtraction options (extract source options.extraction)

end Conversion

end TableModels
