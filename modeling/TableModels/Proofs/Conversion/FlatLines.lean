import TableModels.Proofs.Conversion.EnumReferences
import TableModels.Proofs.Document.QuotedText
import TableModels.Proofs.Document.StrayBraces
import TableModels.Proofs.Index.Declarations
import TableModels.Proofs.Mapping.BareTexts
import TableModels.Proofs.Mapping.DeclaredFields
import TableModels.Proofs.Naming.PascalCase
import TableModels.Proofs.Source.FieldNames

/-!
# One line for each declaration

The names that a conversion writes never contain a line feed, whatever the source is. Fields go by
words, models and enumerations by names in Pascal case, and index columns by identifiers. A string
of the source may contain one all the same, and it reaches the document as it is: a default, a
column name, a value of an enumeration, the name of a table or the name of an index. The document
keeps one line for each field, index, value and table exactly when no such string is there.
-/

namespace TableModels.Conversion

open Document (IsFlat HasFlatHeader HasFlatNames HasFlatTexts linesOf)
open Script (isWordRest)

/-- The models of the tables that are kept. -/
def modelsOf (options : ConversionOptions) (extraction : Extraction) : List ModelDeclaration :=
  (keptTables options extraction).map (modelOf options extraction.dialect)

variable {options : ConversionOptions} {dialect : Dialect}

/-! ### Fields -/

theorem isFlat_pascalCase (name : String) : IsFlat (pascalCase name) := by
  intro hmem
  have hseparator := (mem_of_mem_pascalCase (by decide) hmem).2
  exact absurd hseparator (by decide)

/-- A field whose name is a word writes nothing bare that contains a line feed. -/
theorem hasFlatNames_mappedField {policy : IdentityPolicy} {field : FieldDeclaration}
    (hword : ∀ c ∈ field.name.toList, isWordRest c = true) :
    (Mapping.mappedField dialect policy field).HasFlatNames := by
  constructor
  · rw [Mapping.name_mappedField]
    exact fun hmem => absurd (hword _ hmem) (by decide)
  · intro hmem
    obtain ⟨request, -, hname⟩ := Mapping.exists_request_of_mem_typeName (by decide) hmem
    exact isFlat_pascalCase request.1 hname
  · intro attr hattr bare hbare
    exact (Mapping.writesPlain_of_mappedField attr hattr bare hbare).isFlat

/-- A field whose name is a word is written on a line that repair has no use for. -/
theorem staysApart_mappedField {policy : IdentityPolicy} {field : FieldDeclaration}
    (hword : ∀ c ∈ field.name.toList, isWordRest c = true) :
    (Mapping.mappedField dialect policy field).StaysApart := by
  constructor
  · rw [Mapping.name_mappedField]
    exact fun hmem => absurd (hword _ hmem) (by decide)
  · intro hattributes hbrace
    obtain ⟨request, hrequest, hname⟩ := Mapping.exists_request_of_mem_typeName (by decide) hbrace
    rw [Mapping.fst_eq_name_of_attributes_eq_nil hattributes hrequest] at hname
    exact absurd (hword _ (mem_of_mem_pascalCase (by decide) hname).1) (by decide)

theorem of_mem_auditFields {field : MappedField} (h : field ∈ auditFields) :
    field.HasFlatNames ∧ field.StaysApart := by
  simp only [auditFields, List.mem_cons, List.not_mem_nil, or_false] at h
  rcases h with rfl | rfl | rfl | rfl <;>
    exact ⟨⟨by decide, by decide, by decide⟩, by decide, by decide⟩

theorem of_mem_fields_modelOf {table : TableDeclaration} (h : Source.HasWordNames table.fields)
    {field : MappedField} (hfield : field ∈ (modelOf options dialect table).fields) :
    field.HasFlatNames ∧ field.StaysApart := by
  obtain ⟨declared, hdeclared, rfl⟩ | ⟨-, haudit, -⟩ := mem_fields_modelOf.1 hfield
  · have hword := h declared hdeclared
    exact ⟨hasFlatNames_mappedField hword, staysApart_mappedField hword⟩
  · exact of_mem_auditFields haudit

/-! ### Indexes -/

theorem isFlat_of_mem_columns {table : TableDeclaration} {index : IndexDeclaration}
    (hindex : index ∈ (modelOf options dialect table).indexes) :
    ∀ column ∈ index.fields, IsFlat column := by
  intro column hcolumn
  obtain ⟨descriptor, -, hdeclared⟩ := List.mem_flatMap.1 hindex
  have hident := Index.isIdent_of_mem_fields hdeclared column hcolumn
  exact Index.notMem_of_isIdent hident (by decide)

/-! ### Conversions -/

theorem of_mem_modelsOf {source : String} {model : ModelDeclaration}
    (hmodel : model ∈ modelsOf options (extract source options.extraction)) {field : MappedField}
    (hfield : field ∈ model.fields) : field.HasFlatNames ∧ field.StaysApart := by
  obtain ⟨table, htable, rfl⟩ := List.mem_map.1 hmodel
  have hextracted := (List.mem_filter.1 htable).1
  exact of_mem_fields_modelOf (Source.hasWordNames_of_mem_extract hextracted) hfield

/-- Nothing that a conversion writes bare contains a line feed. -/
theorem hasFlatNames_of_registerAll {source : String} {registry : EnumRegistry}
    (h : (EnumRegistry.empty options.enumConflict).registerAll
      (requests options (extract source options.extraction)) = .ok registry) :
    HasFlatNames registry.entries (modelsOf options (extract source options.extraction)) := by
  constructor
  · intro declaration hdeclaration
    have hname : declaration.name ∈ registry.names := List.mem_map_of_mem hdeclaration
    obtain ⟨_, _, _, _, request, -, heq⟩ := (mem_names_iff h _).1 hname
    rw [heq]
    exact isFlat_pascalCase request.1
  · intro model hmodel
    obtain ⟨table, -, rfl⟩ := List.mem_map.1 hmodel
    exact isFlat_pascalCase table.ident
  · intro model hmodel field hfield
    exact (of_mem_modelsOf hmodel hfield).1
  · intro model hmodel index hindex
    obtain ⟨table, -, rfl⟩ := List.mem_map.1 hmodel
    exact isFlat_of_mem_columns hindex

theorem isWrittenFrom_modelsOf {extraction : Extraction} {registry : EnumRegistry}
    {conversion : Conversion}
    (h : ofOutcomes options extraction (outcomes options extraction) registry = .ok conversion) :
    IsWrittenFrom options conversion registry.entries (modelsOf options extraction) := by
  rw [modelsOf, ← models_outcomes]
  exact (isWrittenFrom_of_ofOutcomes h).2

/-- The lines of the document are those that were written exactly when no text between quotes
contains a line feed. -/
theorem linesOf_document_iff {source : String} {registry : EnumRegistry} {conversion : Conversion}
    (hheader : HasFlatHeader options.header)
    (hregister : (EnumRegistry.empty options.enumConflict).registerAll
      (requests options (extract source options.extraction)) = .ok registry)
    (hwritten : IsWrittenFrom options conversion registry.entries
      (modelsOf options (extract source options.extraction))) :
    linesOf conversion.document = Document.lines options.header options.columnWidth registry.entries
        (modelsOf options (extract source options.extraction))
        conversion.report.excludedTables.length ++ [""] ↔
      HasFlatTexts registry.entries (modelsOf options (extract source options.extraction)) := by
  rw [hwritten.1]
  apply Document.linesOf_repair_iff hheader (hasFlatNames_of_registerAll hregister)
  intro model hmodel field hfield
  exact (of_mem_modelsOf hmodel hfield).2

/-- The column of a text with a default, where the default has something between two letters. -/
def bioColumn (between : String) : FieldDeclaration :=
  ⟨"bio", "varchar(\"bio\", \x7b length: 10 \x7d).default(\"x" ++ between ++ "y\")", 1⟩

/-- A source with one table, which has the one column `bioColumn`. -/
def bioSource (between : String) : String :=
  "const users = mysqlTable(\"users\", \x7b bio: " ++ (bioColumn between).expression ++ " \x7d);"

/-- What is extracted from it. -/
def bioExtraction (between : String) : Extraction where
  dialect := .mysql
  tables := [⟨"users", "users", 1, [bioColumn between], none, []⟩]
  skipped := []

theorem hasFlatHeader_default : HasFlatHeader {} := by
  constructor <;> decide

end TableModels.Conversion
