import TableModels.Command.Failure
import TableModels.Command.Moment
import TableModels.Json.Printer
import TableModels.Json.ReportRecord

/-! # Records of runs

A conversion can be recorded in a directory of its own: what it was told before it begins, and the
report when it has succeeded. -/

namespace TableModels

/-- What sets a run apart from others. -/
structure RunStamp where
  id : String
  startedAt : Moment
  /-- The commit of the working directory, if it is known. -/
  commit : Option String := none
  /-- The working directory differs from its commit, if that is known. -/
  dirty : Option Bool := none
  deriving DecidableEq

/-- What a conversion does, once settings and arguments have been put together. -/
structure ConversionPlan where
  input : Path
  output : Path
  dryRun : Bool
  options : ConversionOptions
  deriving DecidableEq

namespace RunStamp

/-- The identifier that sixteen random bytes make: their hexadecimal digits, with the version and
the variant of random identifiers put in. -/
def idOfBytes (bytes : List UInt8) : String :=
  let marked := (bytes.modify 6 fun byte => byte &&& 0x0f ||| 0x40).modify 8 fun byte =>
    byte &&& 0x3f ||| 0x80
  String.join (marked.map fun byte => zeroPadded 2 (Text.hexDigits byte.toNat))

/-- The name of the directory that records a run. -/
def directoryName (stamp : RunStamp) : String :=
  stamp.startedAt.label ++ "__convert_" ++ String.ofList (stamp.id.toList.take 8)

/-- The record of what a conversion was told. -/
def config (stamp : RunStamp) (plan : ConversionPlan) : Json :=
  .object [
    ("run_id", .string stamp.id),
    ("started_at", .string stamp.startedAt.text),
    ("input", .string plan.input.text),
    ("output", .string plan.output.text),
    ("dry_run", .bool plan.dryRun),
    ("options", plan.options.toJson),
    ("git", .object [
      ("commit", .ofString? stamp.commit),
      ("dirty", (stamp.dirty.map Json.bool).getD .null)])]

end RunStamp

/-- Write a value to a file of a record. -/
def writeRecord (path : Path) (record : Json) : ExceptT CommandError FileScript Unit := do
  unless ← (.writeFile path record.render.toUTF8 .done : FileScript Bool) do
    throw .registry

/-- Begin the record of a run, in a directory below the one given. -/
def startRecord (stamp : RunStamp) (plan : ConversionPlan) (runDirectory : Path) :
    ExceptT CommandError FileScript Path := do
  let directory := runDirectory.child stamp.directoryName
  unless ← (.makeDirectories directory .done : FileScript Bool) do
    throw .registry
  writeRecord (directory.child "config.json") (stamp.config plan)
  return directory

/-- Complete the record of a run. -/
def finishRecord (directory : Path) (report : ConversionReport) :
    ExceptT CommandError FileScript Unit :=
  writeRecord (directory.child "summary.json") report.toJson

end TableModels
