import TableModels.Command.Invocation

/-! # Help texts

What the program answers when it is asked for help or for its version. -/

namespace TableModels

/-- The name and the version of the program. -/
def versionText : String :=
  "schemashift 0.1.0\n"

/-- The help text of a topic. -/
def HelpTopic.text : HelpTopic → String
  | program => "Drizzle to Prisma schema converter

Usage: schemashift <COMMAND>

Commands:
  convert              Convert a source schema document into a target schema document
  fix-schema           Remove stray closing braces from a previously generated schema
  restore-audit-calls  Re-enable commented-out audit-log calls in router sources
  help                 Print this message or the help of the given subcommand(s)

Options:
  -h, --help     Print help
  -V, --version  Print version
"
  | convert => "Convert a source schema document into a target schema document

Usage: schemashift convert [OPTIONS]

Options:
      --input <INPUT>        Source schema document
      --output <OUTPUT>      Target schema document
      --config <CONFIG>      Settings file (defaults to ./schemashift.toml when present)
      --dialect <DIALECT>    [possible values: auto, mysql, pg]
      --identity <IDENTITY>  Primary-key typing policy [possible values: uuid, preserve]
      --exclude <TABLE>      Table identifier to skip (repeatable)
      --no-audit-fields      Do not append the audit fields to every model
      --run-dir <RUN_DIR>    Directory that receives run artifacts
      --dry-run              Convert and report without writing the output file
  -h, --help                 Print help
"
  | fixSchema => "Remove stray closing braces from a previously generated schema

Usage: schemashift fix-schema [OPTIONS] <PATH>

Arguments:
  <PATH>  Generated schema to repair

Options:
      --output <OUTPUT>  Write the repaired document here instead of in place
  -h, --help             Print help
"
  | restoreAuditCalls => "Re-enable commented-out audit-log calls in router sources

Usage: schemashift restore-audit-calls <PATHS>...

Arguments:
  <PATHS>...  Files to rewrite in place

Options:
  -h, --help  Print help
"
  | help => "Print this message or the help of the given subcommand(s)

Usage: schemashift help [COMMAND]...

Arguments:
  [COMMAND]...  Print help for the subcommand(s)
"

end TableModels
