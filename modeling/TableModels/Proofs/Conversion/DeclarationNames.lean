import TableModels.Proofs.Conversion.Run
import TableModels.Proofs.ExceptResult
import TableModels.Proofs.Model.Consistency

/-!
# The names of a document

The enumerations of a document have distinct names, since the registry keeps one entry for a name,
and its models have distinct names, since the models are checked. Nobody compares an enumeration
with a model, and they are named by the same rule: a table and an enumeration may go by one name.
-/

namespace TableModels.Conversion

/-- The document of a conversion is written from the enumerations and models, and the report names
them. -/
def IsWrittenFrom (options : ConversionOptions) (conversion : Conversion)
    (enums : List EnumDeclaration) (models : List ModelDeclaration) : Prop :=
  conversion.document = (Document.repair (Document.emit options.header options.columnWidth enums
      models conversion.report.excludedTables.length)).text ∧
    conversion.report.enums = enums.map (·.name) ∧
    conversion.report.models.map (·.model) = models.map (·.name)

/-- A model and an enumeration go by one name: the name of a table that becomes a model is, in
Pascal case, that of an enumeration for which a field of such a table asks. -/
def SharesName (options : ConversionOptions) (extraction : Extraction) : Prop :=
  ∃ table ∈ keptTables options extraction, ∃ other ∈ keptTables options extraction,
    ∃ field ∈ other.fields, ∃ request ∈ Mapping.fieldRequests extraction.dialect field,
      pascalCase table.ident = pascalCase request.1

instance (options : ConversionOptions) (extraction : Extraction) :
    Decidable (SharesName options extraction) :=
  inferInstanceAs (Decidable (∃ table ∈ keptTables options extraction,
    ∃ other ∈ keptTables options extraction, ∃ field ∈ other.fields,
      ∃ request ∈ Mapping.fieldRequests extraction.dialect field,
        pascalCase table.ident = pascalCase request.1))

/-- The names of the enumerations are those that the fields of kept tables ask for, and the names
of the models are those of kept tables. -/
theorem mem_names_iff {options : ConversionOptions} {extraction : Extraction}
    {registry : EnumRegistry}
    (h : (EnumRegistry.empty options.enumConflict).registerAll (requests options extraction) =
      .ok registry) (name : String) :
    name ∈ registry.names ↔
      ∃ table ∈ keptTables options extraction, ∃ field ∈ table.fields,
        ∃ request ∈ Mapping.fieldRequests extraction.dialect field,
          name = pascalCase request.1 := by
  have hempty : name ∉ (EnumRegistry.empty options.enumConflict).names := List.not_mem_nil
  rw [EnumRegistry.registerAll_mem_names h]
  simp only [hempty, or_false, mem_requests_iff]
  constructor
  · rintro ⟨request, ⟨table, htable, field, hfield, hrequest⟩, hname⟩
    exact ⟨table, htable, field, hfield, request, hrequest, hname⟩
  · rintro ⟨table, htable, field, hfield, request, hrequest, hname⟩
    exact ⟨request, ⟨table, htable, field, hfield, hrequest⟩, hname⟩

/-- The models of a successful conversion are consistent, and its document is written from them and
from the entries of the registry. -/
theorem isWrittenFrom_of_ofOutcomes {options : ConversionOptions} {extraction : Extraction}
    {outcomes : List TableOutcome} {registry : EnumRegistry} {conversion : Conversion}
    (h : ofOutcomes options extraction outcomes registry = .ok conversion) :
    validateModels ((outcomes.filterMap TableOutcome.kept?).map (·.model)) = .ok () ∧
      IsWrittenFrom options conversion registry.entries
        ((outcomes.filterMap TableOutcome.kept?).map (·.model)) := by
  simp only [ofOutcomes] at h
  split at h
  · cases h
  · rename_i hvalid
    cases h
    refine ⟨hvalid, rfl, rfl, ?_⟩
    rw [List.map_map]
    rfl

theorem names_models (options : ConversionOptions) (extraction : Extraction) :
    (((outcomes options extraction).filterMap TableOutcome.kept?).map (·.model)).map (·.name) =
      (keptTables options extraction).map fun table => pascalCase table.ident := by
  rw [kept_outcomes, List.map_map, List.map_map]
  rfl

/-- Enumerations and models keep apart exactly when none of them share a name. -/
theorem disjoint_names_iff {options : ConversionOptions} {extraction : Extraction}
    {registry : EnumRegistry}
    (h : (EnumRegistry.empty options.enumConflict).registerAll (requests options extraction) =
      .ok registry) :
    (∀ name ∈ registry.names, ∀ other ∈
        (keptTables options extraction).map fun table => pascalCase table.ident, name ≠ other) ↔
      ¬ SharesName options extraction := by
  constructor
  · rintro hdistinct ⟨table, htable, hshared⟩
    have henum : pascalCase table.ident ∈ registry.names := (mem_names_iff h _).2 hshared
    have hmodel : pascalCase table.ident ∈
        (keptTables options extraction).map fun table => pascalCase table.ident :=
      List.mem_map.2 ⟨table, htable, rfl⟩
    exact hdistinct _ henum _ hmodel rfl
  · rintro hshared name hname other hother rfl
    obtain ⟨table, htable, rfl⟩ := List.mem_map.1 hother
    exact hshared ⟨table, htable, (mem_names_iff h _).1 hname⟩

/-- The enumerations of a document have distinct names, and so have its models. All of them together
have distinct names exactly when no model shares its name with an enumeration. -/
theorem nodup_declaration_names {options : ConversionOptions} {source : String}
    {conversion : Conversion} (h : ofSource options source = .ok conversion) :
    ∃ enums models, IsWrittenFrom options conversion enums models ∧
      (enums.map (·.name)).Nodup ∧ (models.map (·.name)).Nodup ∧
      ((enums.map (·.name) ++ models.map (·.name)).Nodup ↔
        ¬ SharesName options (extract source options.extraction)) := by
  obtain ⟨registry, hregister, hconversion⟩ := ofSource_eq_ok_iff.1 h
  obtain ⟨hvalid, hwritten⟩ := isWrittenFrom_of_ofOutcomes hconversion
  have henums : registry.names.Nodup :=
    EnumRegistry.registerAll_nodup_names hregister List.nodup_nil
  have hmodels := (ModelDeclaration.validateAfter_eq_ok_iff.1 hvalid).names.1
  refine ⟨_, _, hwritten, henums, hmodels, ?_⟩
  rw [names_models] at hmodels ⊢
  rw [List.nodup_append, ← disjoint_names_iff hregister]
  constructor
  · rintro ⟨-, -, hdistinct⟩
    exact hdistinct
  · intro hdistinct
    exact ⟨henums, hmodels, hdistinct⟩

/-- A table with an enumeration column, where the table and the enumeration go by these names. -/
def tableWithEnum (table enumeration : String) : String :=
  "const " ++ table ++ " = mysqlTable(\"" ++ table ++ "\", \x7b kind: mysqlEnum(\"" ++ enumeration
    ++ "\", [\"a\"]) \x7d);"

/-- What is extracted from such a table. -/
def extractedWithEnum (table enumeration : String) : Extraction where
  dialect := .mysql
  tables := [{
    ident := table
    tableName := table
    line := 1
    fields := [⟨"kind", "mysqlEnum(\"" ++ enumeration ++ "\", [\"a\"])", 1⟩]
    indexBlock := none
    indexDescriptors := [] }]
  skipped := []

theorem nodup_declaration_names_users :
    ∃ conversion enums models, ofSource {} (tableWithEnum "users" "role") = .ok conversion ∧
      IsWrittenFrom {} conversion enums models ∧
      (enums.map (·.name) ++ models.map (·.name)).Nodup := by
  have hextract : extract (tableWithEnum "users" "role") (ConversionOptions.extraction {}) =
      extractedWithEnum "users" "role" := by decide +kernel
  have hshared : ¬ SharesName {} (extractedWithEnum "users" "role") := by decide +kernel
  obtain ⟨conversion, hconversion⟩ :
      ∃ conversion, ofExtraction {} (extractedWithEnum "users" "role") = .ok conversion :=
    exists_eq_ok_of_isOk (by decide +kernel)
  rw [← hextract] at hconversion hshared
  obtain ⟨enums, models, hwritten, -, -, hiff⟩ := nodup_declaration_names hconversion
  exact ⟨conversion, enums, models, hconversion, hwritten, hiff.2 hshared⟩

/-- A table and its enumeration column may go by one name. -/
theorem role_names_both :
    ∃ conversion enums models, ofSource {} (tableWithEnum "role" "role") = .ok conversion ∧
      IsWrittenFrom {} conversion enums models ∧
      ¬ (enums.map (·.name) ++ models.map (·.name)).Nodup := by
  have hextract : extract (tableWithEnum "role" "role") (ConversionOptions.extraction {}) =
      extractedWithEnum "role" "role" := by decide +kernel
  have hshared : SharesName {} (extractedWithEnum "role" "role") := by decide +kernel
  obtain ⟨conversion, hconversion⟩ :
      ∃ conversion, ofExtraction {} (extractedWithEnum "role" "role") = .ok conversion :=
    exists_eq_ok_of_isOk (by decide +kernel)
  rw [← hextract] at hconversion hshared
  obtain ⟨registry, hregister, houtcomes⟩ := ofSource_eq_ok_iff.1 hconversion
  refine ⟨conversion, _, _, hconversion, (isWrittenFrom_of_ofOutcomes houtcomes).2, ?_⟩
  rw [names_models, List.nodup_append]
  rintro ⟨-, -, hdistinct⟩
  exact (disjoint_names_iff hregister).1 hdistinct hshared

end TableModels.Conversion
