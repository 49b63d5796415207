import TableModels.Command.Failure
import TableModels.Text.Padding

/-! # The restoring command

The disabled audit calls of files are restored, one file after the other. A file without any is not
written. The first file that fails ends the command, and those before it stay restored. -/

namespace TableModels

/-- How many audit calls of a file have been restored. -/
structure FileRestoration where
  path : Path
  restored : Nat
  deriving DecidableEq

/-- Restore the audit calls of a file. -/
def restoreFile (path : Path) : ExceptT AuditCallsError FileScript FileRestoration := do
  let text ← FileScript.readTextOr (.read path) path
  let (restored, count) := AuditCalls.restore text
  if count > 0 then
    (writeAtomically path restored.toUTF8).adapt (.write path)
  return ⟨path, count⟩

/-- Restore the audit calls of files in order. -/
def restoreFiles : List Path → ExceptT AuditCallsError FileScript (List FileRestoration)
  | [] => return []
  | path :: rest => do
      let first ← restoreFile path
      let others ← restoreFiles rest
      return first :: others

/-- How many audit calls of several files have been restored. -/
def totalRestored (restorations : List FileRestoration) : Nat :=
  restorations.foldr (fun restoration rest => restoration.restored + rest) 0

/-- What is told about restored files. -/
def restorationReport (restorations : List FileRestoration) : String :=
  let lines := restorations.map fun restoration =>
    Text.padLeft 4 (toString restoration.restored) ++ "  " ++ restoration.path.text ++ "\n"
  String.join lines
    ++ s!"Restored {totalRestored restorations} audit call(s) in {restorations.length} file(s)\n"

/-- Restore the audit calls of files, and tell what has been done. -/
def performRestoreAuditCalls (paths : List Path) : ExceptT CommandError FileScript String := do
  return restorationReport (← (restoreFiles paths).adapt .auditCalls)

end TableModels
