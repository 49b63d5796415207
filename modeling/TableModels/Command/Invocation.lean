import TableModels.Command.Arguments
import TableModels.Json.OptionsRecord

/-! # Invocations

What the command line asks for: one of the commands with its arguments, help, or the version. An
argument that must be given is missed only after all others have been understood. -/

namespace TableModels

/-- What a conversion is told on the command line. -/
structure ConvertArguments where
  input : Option Path := none
  output : Option Path := none
  /-- The settings file. -/
  config : Option Path := none
  dialect : Option DialectChoice := none
  identity : Option IdentityPolicy := none
  /-- The names to exclude besides those in the settings. -/
  exclude : List String := []
  noAuditFields : Bool := false
  /-- The directory in which the run is recorded. -/
  runDirectory : Option Path := none
  /-- Nothing is written at the output. -/
  dryRun : Bool := false
  deriving DecidableEq

/-- What the repair of a document is told on the command line. -/
structure FixSchemaArguments where
  path : Path
  output : Option Path
  deriving DecidableEq

/-- A command with its arguments. -/
inductive Command where
  | convert (arguments : ConvertArguments)
  | fixSchema (arguments : FixSchemaArguments)
  | restoreAuditCalls (paths : List Path)
  deriving DecidableEq

/-- What help can be asked for. -/
inductive HelpTopic where
  | program
  | convert
  | fixSchema
  | restoreAuditCalls
  | help
  deriving DecidableEq

/-- What the command line asks for. -/
inductive Invocation where
  | perform (command : Command)
  | help (topic : HelpTopic)
  | version
  deriving DecidableEq

namespace ConvertArguments

/-- What each option of a conversion does. -/
def option? : String → Option (OptionForm ConvertArguments)
  | "input" => some <| .valued fun value arguments => do
      let input ← fillOnce "input" arguments.input (← readPath "input" value)
      return { arguments with input }
  | "output" => some <| .valued fun value arguments => do
      let output ← fillOnce "output" arguments.output (← readPath "output" value)
      return { arguments with output }
  | "config" => some <| .valued fun value arguments => do
      let config ← fillOnce "config" arguments.config (← readPath "config" value)
      return { arguments with config }
  | "dialect" => some <| .valued fun value arguments => do
      let choice ← readChoice DialectChoice.ofTag? "dialect" value
      let dialect ← fillOnce "dialect" arguments.dialect choice
      return { arguments with dialect }
  | "identity" => some <| .valued fun value arguments => do
      let policy ← readChoice IdentityPolicy.ofTag? "identity" value
      let identity ← fillOnce "identity" arguments.identity policy
      return { arguments with identity }
  | "exclude" => some <| .valued fun value arguments =>
      return { arguments with exclude := arguments.exclude ++ [value] }
  | "no-audit-fields" => some <| .switch fun arguments => do
      let noAuditFields ← turnOnOnce "no-audit-fields" arguments.noAuditFields
      return { arguments with noAuditFields }
  | "run-dir" => some <| .valued fun value arguments => do
      let runDirectory ← fillOnce "run-dir" arguments.runDirectory (← readPath "run-dir" value)
      return { arguments with runDirectory }
  | "dry-run" => some <| .switch fun arguments => do
      let dryRun ← turnOnOnce "dry-run" arguments.dryRun
      return { arguments with dryRun }
  | _ => none

/-- The form of the arguments of a conversion. -/
def form : CommandForm ConvertArguments where
  option? := option?
  positional := fun argument _ => .error (.unexpectedArgument argument)

/-- Read the arguments of a conversion. -/
def read (arguments : List String) : Except ReadingStop ConvertArguments :=
  form.read {} arguments

end ConvertArguments

namespace FixSchemaArguments

/-- The form of the arguments of a repair: the path of the document, and where the repaired document
goes. -/
def form : CommandForm (Option Path × Option Path) where
  option?
    | "output" => some <| .valued fun value (path, output) => do
        return (path, ← fillOnce "output" output (← readPath "output" value))
    | _ => none
  positional
    | argument, (none, output) => do return (some (← readPath "PATH" argument), output)
    | argument, (some _, _) => .error (.unexpectedArgument argument)

/-- Read the arguments of a repair. -/
def read (arguments : List String) : Except ReadingStop FixSchemaArguments :=
  match form.read (none, none) arguments with
  | .ok (some path, output) => .ok ⟨path, output⟩
  | .ok (none, _) => .error (.misuse (.missingArgument "PATH"))
  | .error stop => .error stop

end FixSchemaArguments

namespace RestoreAuditCallsArguments

/-- The form of a list of paths. -/
def form : CommandForm (List Path) where
  option? := fun _ => none
  positional := fun argument paths => do return paths ++ [← readPath "PATHS" argument]

/-- Read a list of paths, which is not empty. -/
def read (arguments : List String) : Except ReadingStop (List Path) :=
  match form.read [] arguments with
  | .ok [] => .error (.misuse (.missingArgument "PATHS"))
  | .ok (path :: paths) => .ok (path :: paths)
  | .error stop => .error stop

end RestoreAuditCallsArguments

namespace HelpTopic

/-- The topic of a list of command names. -/
def read : List String → Except UsageError HelpTopic
  | [] => .ok .program
  | "convert" :: rest => alone .convert rest
  | "fix-schema" :: rest => alone .fixSchema rest
  | "restore-audit-calls" :: rest => alone .restoreAuditCalls rest
  | "help" :: rest => alone .help rest
  | name :: _ => .error (.unknownCommand name)
where
  /-- The topic, unless a name follows it. -/
  alone (topic : HelpTopic) : List String → Except UsageError HelpTopic
    | [] => .ok topic
    | name :: _ => .error (.unknownCommand name)

end HelpTopic

namespace Invocation

/-- The invocation of a command whose arguments have been read. -/
def ofReading {α : Type} (topic : HelpTopic) (command : α → Command) :
    Except ReadingStop α → Except UsageError Invocation
  | .ok arguments => .ok (.perform (command arguments))
  | .error .help => .ok (.help topic)
  | .error (.misuse error) => .error error

/-- Read the command line. -/
def read : List String → Except UsageError Invocation
  | [] => .error .missingCommand
  | first :: rest =>
      match argumentShape first with
      | .endOfOptions =>
          .error (match rest with
            | [] => .missingCommand
            | argument :: _ => .unexpectedArgument argument)
      | .short letters =>
          if letters.head? = some 'h' then .ok (.help .program)
          else if letters.head? = some 'V' then .ok .version
          else .error (.unexpectedArgument first)
      | .long "help" none => .ok (.help .program)
      | .long "version" none => .ok .version
      | .long _ _ => .error (.unexpectedArgument first)
      | .plain =>
          match first with
          | "convert" => ofReading .convert .convert (ConvertArguments.read rest)
          | "fix-schema" => ofReading .fixSchema .fixSchema (FixSchemaArguments.read rest)
          | "restore-audit-calls" =>
              ofReading .restoreAuditCalls .restoreAuditCalls
                (RestoreAuditCallsArguments.read rest)
          | "help" => (HelpTopic.read rest).map .help
          | name => .error (.unknownCommand name)

theorem ofReading_perform_iff {α : Type} {topic : HelpTopic} {command : α → Command}
    {reading : Except ReadingStop α} {performed : Command} :
    ofReading topic command reading = .ok (.perform performed)
      ↔ ∃ arguments, reading = .ok arguments ∧ command arguments = performed := by
  rcases reading with (_ | _) | _ <;> simp [ofReading]

end Invocation

end TableModels
