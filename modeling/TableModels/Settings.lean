import TableModels.Files.FileScript
import TableModels.Json.OptionsRecord
import TableModels.Toml.Document

/-! # Settings

The settings of a conversion, read from a settings file: where the documents are, and the options.
Whatever the file leaves out has a default. A settings file that is asked for must be there; the
default settings file need not be. -/

namespace TableModels

/-- Where the documents are. -/
structure PathSettings where
  input : Path := ⟨"drizzle/schema.ts"⟩
  output : Path := ⟨"prisma/schema.prisma"⟩
  deriving DecidableEq

/-- The settings of a conversion. -/
structure Settings where
  paths : PathSettings := {}
  convert : ConversionOptions := {}
  deriving DecidableEq

/-- Why settings could not be loaded. -/
inductive SettingsError where
  /-- The settings file could not be read. -/
  | io
  /-- The settings file could not be understood. -/
  | decode
  deriving DecidableEq

/-- The settings file that is looked for when none is asked for. -/
def defaultSettingsFile : Path := ⟨"schemashift.toml"⟩

namespace PathSettings

/-- The value of the path settings. -/
def toJson (paths : PathSettings) : Json :=
  .object [("input", .string paths.input.text), ("output", .string paths.output.text)]

/-- Read path settings. -/
def ofJson? (json : Json) : Option PathSettings := do
  let base : PathSettings := {}
  match ← json.partialRecord? ["input", "output"] with
  | [input, output] =>
      let input ← Json.fieldOr base.input.text Json.string? input
      let output ← Json.fieldOr base.output.text Json.string? output
      return ⟨⟨input⟩, ⟨output⟩⟩
  | _ => none

end PathSettings

namespace Settings

/-- The value of the settings. -/
def toJson (settings : Settings) : Json :=
  .object [("paths", settings.paths.toJson), ("convert", settings.convert.toJson)]

/-- Read settings. -/
def ofJson? (json : Json) : Option Settings := do
  match ← json.partialRecord? ["paths", "convert"] with
  | [paths, convert] =>
      let paths ← Json.fieldOr {} PathSettings.ofJson? paths
      let convert ← Json.fieldOr {} ConversionOptions.ofJson? convert
      return { paths, convert }
  | _ => none

/-- The options of a conversion that are options of enumerations. -/
def choiceNames : List String :=
  ["dialect", "identity", "enum_conflict"]

/-- The settings that the text of a settings file tells. -/
def ofToml? (text : String) : Option Settings := do
  let members ← Toml.parse? text
  ofJson? (.object (Toml.membersToJson (members.mapTable "convert" (·.withChoices choiceNames))))

/-- The settings of a settings file. -/
def loadFrom (path : Path) : ExceptT SettingsError FileScript Settings := do
  match ofToml? (← FileScript.readTextOr .io path) with
  | some settings => return settings
  | none => throw .decode

/-- The settings of the file that is asked for, if any, else of the default settings file, if it is
there, else the defaults. -/
def load (explicit : Option Path) : ExceptT SettingsError FileScript Settings := do
  match explicit with
  | some path => loadFrom path
  | none =>
      if ← (.isPresent defaultSettingsFile .done : FileScript Bool) then
        loadFrom defaultSettingsFile
      else
        return {}

end Settings

end TableModels
