import TableModels.Proofs.Command.ConversionEffects
import TableModels.Proofs.Conversion.FlatLines

/-!
# The source of a conversion

The paths of input and output differ in a conversion, and still they may lead to one file: the paths
are compared part by part, without following them. So the source is safe when none of the paths that
are written leads to where the input leads, and otherwise the last of them decides what is left.
-/

namespace TableModels

open Conversion (bioSource bioExtraction)

variable {stamp : RunStamp} {tree after : FileTree}

/-- The stamp of a run. -/
def plainStamp : RunStamp where
  id := "0123456789abcdef0123456789abcdef"
  startedAt := ⟨0, 0⟩

/-- A tree that holds nothing but a source document. -/
def sourceTree : FileTree where
  workingDirectory := []
  nodes := [(["schema.ts"], .file (bioSource " ").toUTF8)]

/-- The arguments that ask for the conversion of this document. -/
def conversionTo (output : Path) : ConvertArguments where
  input := some ⟨"schema.ts"⟩
  output := some output

/-- The words with these arguments. -/
def conversionWords (output : Path) : List String :=
  ["convert", "--input", "schema.ts", "--output", output.text]

/-- The plan that these arguments lead to. -/
def planTo (output : Path) : ConversionPlan where
  input := ⟨"schema.ts"⟩
  output := output
  dryRun := false
  options := {}

theorem run_load_sourceTree :
    (Settings.load none).run.run sourceTree = (.ok {}, sourceTree) := rfl

theorem exists_eq_success_of_exitCode {outcome : Outcome} (h : outcome.exitCode = 0) :
    ∃ told, outcome = .success told := by
  cases outcome with
  | success told => exact ⟨told, rfl⟩
  | failure error => cases h
  | misuse error => cases h

theorem effects_planTo {output temporary : Path} (h : temporaryPath? output = some temporary)
    (conversion : Conversion) :
    (planTo output).effects plainStamp none conversion =
      [⟨temporary, none⟩, ⟨output, some conversion.document.toUTF8⟩] := by
  simp [ConversionPlan.effects, ConversionPlan.openingEffects, ConversionPlan.closingEffects,
    ConversionPlan.documentEffects, ConversionPlan.record, planTo, h]

/-- The document of this source is another text, since it begins with a heading. -/
theorem document_ne_bioSource {conversion : Conversion}
    (h : Conversion.ofSource {} (bioSource " ") = .ok conversion) :
    conversion.document ≠ bioSource " " := by
  have hextract : extract (bioSource " ") (ConversionOptions.extraction {}) =
      bioExtraction " " := by
    decide +kernel
  obtain ⟨registry, hregister, houtcomes⟩ := Conversion.ofSource_eq_ok_iff.1 h
  have hwritten := Conversion.isWrittenFrom_modelsOf houtcomes
  have hiff :=
    Conversion.linesOf_document_iff Conversion.hasFlatHeader_default hregister hwritten
  rw [hextract] at hregister hiff
  have hrequests : Conversion.requests {} (bioExtraction " ") = [] := by decide +kernel
  rw [hrequests] at hregister
  cases hregister
  have hlines := hiff.2 ⟨by decide, by decide +kernel, by decide +kernel, by decide +kernel⟩
  intro hsame
  rw [hsame] at hlines
  have hheading : (Document.linesOf (bioSource " ")).head? = some Document.rule :=
    congrArg List.head? hlines
  exact absurd hheading (by decide +kernel)

end TableModels
