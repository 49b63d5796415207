import TableModels.AuditCalls.DisabledCall
import TableModels.Files.AtomicWrite
import TableModels.ModelError
import TableModels.Settings

/-! # Failures of commands

The ways in which a command fails once its arguments have been understood. Every failure is of one
of six kinds. -/

namespace TableModels

/-- Why the audit calls of a file were not restored. -/
inductive AuditCallsError where
  | read (path : Path)
  | write (path : Path) (error : WriteError)
  deriving DecidableEq

/-- Why a configuration makes no sense. -/
inductive ConfigError where
  /-- The column of field names has no width. -/
  | noColumn
  | sameFile (input : Path)
  deriving DecidableEq

/-- Why a command failed. -/
inductive CommandError where
  /-- The run could not be recorded. -/
  | registry
  | settings (error : SettingsError)
  | output (error : WriteError)
  | convert (error : ModelError)
  | auditCalls (error : AuditCallsError)
  | read (path : Path)
  | invalidConfig (error : ConfigError)
  deriving DecidableEq

/-- The kinds of failures. -/
inductive FailureKind where
  | registry
  | workspace
  | convert
  | auditCalls
  | read
  | invalidConfig
  deriving DecidableEq

/-- The wording of a failure to load settings. -/
def SettingsError.message : SettingsError → String
  | io => "the settings file cannot be read"
  | decode => "the settings file cannot be decoded"

/-- The wording of a failure to write. -/
def WriteError.message : WriteError → String
  | io => "the file cannot be written"
  | invalidPath path => s!"invalid path: {path.text}"

/-- The wording of a failure to restore audit calls. -/
def AuditCallsError.message : AuditCallsError → String
  | read path => s!"failed to read {path.text}"
  | write path error => s!"failed to write {path.text}: {error.message}"

/-- The wording of a senseless configuration. -/
def ConfigError.message : ConfigError → String
  | noColumn => "column_width must be at least 1"
  | sameFile input => s!"input and output are the same file: {input.text}"

namespace CommandError

/-- The kind of a failure. -/
def kind : CommandError → FailureKind
  | registry => .registry
  | settings _ | output _ => .workspace
  | convert _ => .convert
  | auditCalls _ => .auditCalls
  | read _ => .read
  | invalidConfig _ => .invalidConfig

/-- The wording of a failure. -/
def message : CommandError → String
  | registry => "registry error: the run directory cannot be written"
  | settings error => s!"workspace error: {error.message}"
  | output error => s!"workspace error: {error.message}"
  | convert error => s!"conversion error: {error.message}"
  | auditCalls error => s!"audit call rewrite error: {error.message}"
  | read path => s!"failed to read {path.text}"
  | invalidConfig error => s!"invalid configuration: {error.message}"

end CommandError

end TableModels
