import TableModels.Command.Invocation
import TableModels.Command.RunRecord
import TableModels.Conversion.Pipeline
import TableModels.Text.NameSet

/-! # The conversion command

The settings and the arguments make a plan; the run is recorded, if it is to be; the source document
is read and converted; the target document is written, unless the run is dry; and the record is
completed. The first step that fails ends the command. -/

namespace TableModels

namespace ConvertArguments

/-- The options in the settings as the arguments change them. -/
def override (arguments : ConvertArguments) (options : ConversionOptions) : ConversionOptions :=
  { options with
    dialect := arguments.dialect.getD options.dialect
    identity := arguments.identity.getD options.identity
    exclude := Text.insertNames arguments.exclude options.exclude
    auditFields := options.auditFields && !arguments.noAuditFields }

/-- The plan of a conversion. -/
def plan (arguments : ConvertArguments) (settings : Settings) :
    Except ConfigError ConversionPlan :=
  let plan : ConversionPlan :=
    { input := arguments.input.getD settings.paths.input
      output := arguments.output.getD settings.paths.output
      dryRun := arguments.dryRun
      options := arguments.override settings.convert }
  if plan.options.columnWidth = 0 then .error .noColumn
  else if plan.input.isSame plan.output then .error (.sameFile plan.input)
  else .ok plan

end ConvertArguments

/-- What the conversion of the source text comes to. -/
def ConversionPlan.convert (plan : ConversionPlan) (source : String) :
    Except ModelError Conversion :=
  Conversion.ofSource plan.options source

/-- What is told about a conversion that has succeeded. -/
def ConversionPlan.announcement (plan : ConversionPlan) (report : ConversionReport) : String :=
  report.summary ++ "\n" ++ (if plan.dryRun then "" else "\nOutput: " ++ plan.output.text ++ "\n")

/-- Carry out a plan. -/
def ConversionPlan.perform (plan : ConversionPlan) (stamp : RunStamp)
    (runDirectory : Option Path) : ExceptT CommandError FileScript String := do
  let record ← match runDirectory with
    | some parent => some <$> startRecord stamp plan parent
    | none => pure none
  let source ← FileScript.readTextOr (.read plan.input) plan.input
  let conversion ← ((plan.convert source).mapError .convert : Except CommandError Conversion)
  unless plan.dryRun do
    (writeAtomically plan.output conversion.document.toUTF8).adapt .output
  if let some directory := record then
    finishRecord directory conversion.report
  return plan.announcement conversion.report

/-- Convert a source document into a target document, and tell what has been done. -/
def performConvert (stamp : RunStamp) (arguments : ConvertArguments) :
    ExceptT CommandError FileScript String := do
  let settings ← (Settings.load arguments.config).adapt .settings
  let plan ← ((arguments.plan settings).mapError .invalidConfig :
    Except CommandError ConversionPlan)
  plan.perform stamp arguments.runDirectory

end TableModels
