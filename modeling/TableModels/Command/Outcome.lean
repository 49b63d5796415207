import TableModels.Command.Convert
import TableModels.Command.FixSchema
import TableModels.Command.Help
import TableModels.Command.RestoreAuditCalls

/-! # Runs of the program

The arguments are understood first, and nothing is done when they cannot be. Then the command is
carried out, and it ends with what it tells or with the failure that stopped it; a failure tells
nothing on the standard output. -/

namespace TableModels

/-- How a run of the program ends. -/
inductive Outcome where
  /-- The run has succeeded, with this text on the standard output. -/
  | success (stdout : String)
  | failure (error : CommandError)
  | misuse (error : UsageError)
  deriving DecidableEq

namespace Outcome

/-- The exit code of the program. -/
def exitCode : Outcome → UInt32
  | success _ => 0
  | failure _ => 1
  | misuse _ => 2

/-- The text on the standard output. -/
def stdout : Outcome → String
  | success text => text
  | failure _ | misuse _ => ""

/-- The text on the standard error output. -/
def stderr : Outcome → String
  | success _ => ""
  | failure error => s!"Error: {error.message}\n"
  | misuse error => s!"error: {error.message}\n"

/-- The failure that ended the run. -/
def failure? : Outcome → Option CommandError
  | failure error => some error
  | success _ | misuse _ => none

/-- The outcome of a command that told something or failed. -/
def ofResult : Except CommandError String → Outcome
  | .ok text => success text
  | .error error => failure error

end Outcome

/-- Carry out a command, and tell what has been done. -/
def Command.perform (stamp : RunStamp) : Command → ExceptT CommandError FileScript String
  | convert arguments => performConvert stamp arguments
  | fixSchema arguments => performFixSchema arguments
  | restoreAuditCalls paths => performRestoreAuditCalls paths

/-- Do what the command line asks for. -/
def Invocation.answer (stamp : RunStamp) : Invocation → FileScript Outcome
  | .perform command => Outcome.ofResult <$> (command.perform stamp).run
  | .help topic => return .success topic.text
  | .version => return .success versionText

/-- A run of the program with the given arguments. -/
def runProgram (stamp : RunStamp) (arguments : List String) : FileScript Outcome :=
  match Invocation.read arguments with
  | .ok invocation => invocation.answer stamp
  | .error error => return .misuse error

theorem runProgram_misuse {stamp : RunStamp} {arguments : List String} {error : UsageError}
    (h : Invocation.read arguments = .error error) (tree : FileTree) :
    (runProgram stamp arguments).run tree = (.misuse error, tree) := by
  rw [runProgram, h]
  rfl

end TableModels
