import TableModels.Enumeration.Declaration
import TableModels.ModelError
import TableModels.Source.Declaration
import TableModels.Text.Padding

/-! # Reports

What a conversion did: the models and enumerations it made and all that it left out, set aside or
could not read, together with a summary for people. -/

namespace TableModels

/-- A model that was made, with its table and the number of its fields. -/
structure ModelSummary where
  model : String
  table : String
  fields : Nat
  deriving DecidableEq

/-- A field whose expression no rule maps. -/
structure UnmappedField where
  model : String
  field : String
  expression : String
  deriving DecidableEq

/-- An index descriptor that declares no index. -/
structure UnparsedIndex where
  model : String
  descriptor : String
  deriving DecidableEq

/-- The report of a conversion. -/
structure ConversionReport where
  dialect : String
  models : List ModelSummary
  enums : List String
  excludedTables : List String
  skippedLines : List SkippedLine
  unmappedFields : List UnmappedField
  unparsedIndexes : List UnparsedIndex
  enumConflicts : List EnumConflict
  repairedBlocks : Nat
  /-- The fingerprint of the document. -/
  documentFingerprint : String
  deriving DecidableEq

namespace ConversionReport

/-- A line of the summary, if there is anything to count. -/
def countLine {α : Type} (label : String) (items : List α) : List String :=
  if items.isEmpty then [] else [label ++ ": " ++ toString items.length]

/-- The line of an unmapped field. -/
def unmappedLine (field : UnmappedField) : String :=
  "  - " ++ field.model ++ "." ++ field.field ++ ": " ++ field.expression

/-- The line of a conflict between two definitions of an enumeration. -/
def conflictLine (conflict : EnumConflict) : String :=
  "Enum conflict: " ++ conflict.name ++ " kept [" ++ ModelError.listed conflict.existing
    ++ "], ignored [" ++ ModelError.listed conflict.incoming ++ "]"

/-- The line of a model with its number in the list. -/
def modelLine (number : Nat) (model : ModelSummary) : String :=
  "  " ++ Text.padLeft 2 (toString number) ++ ". " ++ Text.padRight 30 model.model
    ++ " (" ++ model.table ++ ")"

/-- The lines of the models, numbered from `number`. -/
def modelLines (number : Nat) : List ModelSummary → List String
  | [] => []
  | model :: rest => modelLine number model :: modelLines (number + 1) rest

/-- The lines of the summary. -/
def summaryLines (report : ConversionReport) : List String :=
  ["Generated " ++ toString report.models.length ++ " models",
    "Generated " ++ toString report.enums.length ++ " enum types"]
    ++ (if report.excludedTables.isEmpty then []
        else ["Excluded tables: " ++ ModelError.listed report.excludedTables])
    ++ countLine "Skipped lines" report.skippedLines
    ++ countLine "Unmapped fields" report.unmappedFields
    ++ report.unmappedFields.map unmappedLine
    ++ countLine "Unparsed indexes" report.unparsedIndexes
    ++ report.enumConflicts.map conflictLine
    ++ ["", "Generated tables:"]
    ++ modelLines 1 report.models

/-- The summary for people. -/
def summary (report : ConversionReport) : String :=
  String.intercalate "\n" report.summaryLines

end ConversionReport

end TableModels
