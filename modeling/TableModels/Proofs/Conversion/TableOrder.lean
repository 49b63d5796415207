import TableModels.Proofs.Conversion.Run
import TableModels.Proofs.Document.Lines
import TableModels.Proofs.Enumeration.Agreement
import TableModels.Proofs.ExceptResult
import TableModels.Proofs.Model.Consistency

/-!
# The order of the tables

Under the policy `error` the order in which tables are declared only orders what is written for each
of them. Whether a conversion goes through does not depend on it, and neither do the enumerations.
`IsWrittenByTables` says what is written for a table, without the tables before and behind it.
-/

namespace TableModels.Conversion

/-- The tables that leave only their names. -/
def excludedTables (options : ConversionOptions) (extraction : Extraction) :
    List TableDeclaration :=
  extraction.tables.filter fun table => options.exclude.contains table.ident

/-- The model that a kept table becomes. -/
def modelOf (options : ConversionOptions) (dialect : Dialect) (table : TableDeclaration) :
    ModelDeclaration :=
  (assembledOf options dialect table).model

/-- The conversion is written from the enumerations and, table by table, from the extraction. -/
structure IsWrittenByTables (options : ConversionOptions) (extraction : Extraction)
    (enums : List EnumDeclaration) (conversion : Conversion) : Prop where
  document : conversion.document = (Document.repair (Document.ofLines
    (Document.headerLines options.header (keptTables options extraction).length
        (excludedTables options extraction).length
      ++ Document.enumSection enums
      ++ Document.modelSection options.columnWidth
        ((keptTables options extraction).map (modelOf options extraction.dialect))))).text
  enums : conversion.report.enums = enums.map (·.name)
  models : conversion.report.models =
    (keptTables options extraction).map fun table =>
      modelSummary (modelOf options extraction.dialect table)
  excluded : conversion.report.excludedTables = (excludedTables options extraction).map (·.ident)
  unmapped : conversion.report.unmappedFields =
    (keptTables options extraction).flatMap fun table =>
      unmappedFields (modelOf options extraction.dialect table)
  unparsed : conversion.report.unparsedIndexes =
    (keptTables options extraction).flatMap fun table =>
      unparsedIndexes (assembledOf options extraction.dialect table)

theorem excluded_outcomes (options : ConversionOptions) (extraction : Extraction) :
    (outcomes options extraction).filterMap TableOutcome.excluded? =
      (excludedTables options extraction).map (·.ident) := by
  rw [outcomes, excludedTables]
  induction extraction.tables with
  | nil => rfl
  | cons table rest ih =>
      rw [List.map_cons, List.filterMap_cons, ih, List.filter_cons, outcomeOf]
      cases options.exclude.contains table.ident <;> rfl

/-- The models of a conversion, in the order of their tables. -/
theorem models_outcomes (options : ConversionOptions) (extraction : Extraction) :
    ((outcomes options extraction).filterMap TableOutcome.kept?).map (·.model) =
      (keptTables options extraction).map (modelOf options extraction.dialect) := by
  rw [kept_outcomes, List.map_map]
  rfl

theorem exists_ofOutcomes_iff {options : ConversionOptions} {extraction : Extraction}
    {registry : EnumRegistry} :
    (∃ conversion, ofOutcomes options extraction (outcomes options extraction) registry =
        .ok conversion) ↔
      validateModels ((keptTables options extraction).map (modelOf options extraction.dialect)) =
        .ok () := by
  rw [← models_outcomes]
  simp only [ofOutcomes]
  cases validateModels (((outcomes options extraction).filterMap TableOutcome.kept?).map
    (·.model)) <;> simp

theorem isWrittenByTables_of_ofOutcomes {options : ConversionOptions} {extraction : Extraction}
    {registry : EnumRegistry} {conversion : Conversion}
    (h : ofOutcomes options extraction (outcomes options extraction) registry = .ok conversion) :
    IsWrittenByTables options extraction registry.entries conversion := by
  simp only [ofOutcomes, models_outcomes, excluded_outcomes] at h
  rw [kept_outcomes] at h
  split at h
  · cases h
  · cases h
    constructor
    · rw [Document.emit, Document.lines_eq_sections, List.length_map, List.length_map]
    · rfl
    · exact List.map_map
    · rfl
    · exact List.flatMap_map _ _ _
    · exact List.flatMap_map _ _ _

/-! ### Another order -/

theorem keptTables_perm {options : ConversionOptions} {extraction : Extraction}
    {tables : List TableDeclaration} (h : extraction.tables.Perm tables) :
    (keptTables options extraction).Perm (keptTables options { extraction with tables }) :=
  h.filter _

/-- The registrations under `error` lead to the same registry in any order of the tables. -/
theorem registerAll_requests_of_perm {options : ConversionOptions} {extraction : Extraction}
    {tables : List TableDeclaration} (h : extraction.tables.Perm tables) {registry : EnumRegistry} :
    (EnumRegistry.empty .error).registerAll (requests options extraction) = .ok registry ↔
      (EnumRegistry.empty .error).registerAll (requests options { extraction with tables }) =
        .ok registry :=
  EnumRegistry.registerAll_error_of_perm (h.flatMap_right _)

theorem exists_conversion_of_perm {options : ConversionOptions} {extraction : Extraction}
    {tables : List TableDeclaration} (hpolicy : options.enumConflict = .error)
    (h : extraction.tables.Perm tables)
    (hfirst : ∃ conversion, ofExtraction options extraction = .ok conversion) :
    ∃ conversion, ofExtraction options { extraction with tables } = .ok conversion := by
  obtain ⟨conversion, hconversion⟩ := hfirst
  obtain ⟨registry, hregister, houtcomes⟩ := ofExtraction_eq_ok_iff.1 hconversion
  rw [hpolicy] at hregister
  have hmodels : ((keptTables options extraction).map (modelOf options extraction.dialect)).Perm
      ((keptTables options { extraction with tables }).map (modelOf options extraction.dialect)) :=
    (keptTables_perm h).map _
  have hvalid := exists_ofOutcomes_iff.1 ⟨conversion, houtcomes⟩
  rw [ModelDeclaration.validateModels_of_perm hmodels] at hvalid
  have hother : ∃ other, ofOutcomes options { extraction with tables }
      (outcomes options { extraction with tables }) registry = .ok other :=
    exists_ofOutcomes_iff.2 hvalid
  obtain ⟨other, hother⟩ := hother
  refine ⟨other, ofExtraction_eq_ok_iff.2 ⟨registry, ?_, hother⟩⟩
  rw [hpolicy]
  exact (registerAll_requests_of_perm h).1 hregister

/-- Under `error` a conversion goes through for all orders of its tables or for none. The
enumerations are the same for all, and what is written for a table does not change. -/
theorem ofExtraction_of_perm {options : ConversionOptions} {extraction : Extraction}
    {tables : List TableDeclaration} (hpolicy : options.enumConflict = .error)
    (h : extraction.tables.Perm tables) :
    ((∃ conversion, ofExtraction options extraction = .ok conversion) ↔
        ∃ conversion, ofExtraction options { extraction with tables } = .ok conversion) ∧
      ∀ first second, ofExtraction options extraction = .ok first →
        ofExtraction options { extraction with tables } = .ok second →
          ∃ enums, IsWrittenByTables options extraction enums first ∧
            IsWrittenByTables options { extraction with tables } enums second := by
  constructor
  · constructor
    · exact exists_conversion_of_perm hpolicy h
    · exact @exists_conversion_of_perm options { extraction with tables } extraction.tables hpolicy
        h.symm
  · intro first second hfirst hsecond
    obtain ⟨registry, hregister, houtcomes⟩ := ofExtraction_eq_ok_iff.1 hfirst
    obtain ⟨other, hother, hotherOutcomes⟩ := ofExtraction_eq_ok_iff.1 hsecond
    rw [hpolicy] at hregister hother
    rw [registerAll_requests_of_perm h, hother] at hregister
    cases hregister
    exact ⟨_, isWrittenByTables_of_ofOutcomes houtcomes,
      isWrittenByTables_of_ofOutcomes hotherOutcomes⟩

/-- A table with a column of the enumeration `role`. -/
def tableWithRole (name : String) : TableDeclaration where
  ident := name
  tableName := name
  line := 1
  fields := [⟨"role", "mysqlEnum(\"role\", [\"admin\", \"member\"])", 1⟩]
  indexBlock := none
  indexDescriptors := []

theorem ofExtraction_of_perm_role :
    ∃ first second enums,
      ofExtraction {} ⟨.mysql, [tableWithRole "users", tableWithRole "staff"], []⟩ = .ok first ∧
      ofExtraction {} ⟨.mysql, [tableWithRole "staff", tableWithRole "users"], []⟩ = .ok second ∧
      IsWrittenByTables {} ⟨.mysql, [tableWithRole "users", tableWithRole "staff"], []⟩ enums first ∧
      IsWrittenByTables {} ⟨.mysql, [tableWithRole "staff", tableWithRole "users"], []⟩ enums
        second := by
  obtain ⟨first, hfirst⟩ : ∃ first, ofExtraction {}
      ⟨.mysql, [tableWithRole "users", tableWithRole "staff"], []⟩ = .ok first :=
    exists_eq_ok_of_isOk (by decide +kernel)
  have hperm : [tableWithRole "users", tableWithRole "staff"].Perm
      [tableWithRole "staff", tableWithRole "users"] := List.Perm.swap _ _ _
  obtain ⟨hiff, hwritten⟩ := @ofExtraction_of_perm {}
    ⟨.mysql, [tableWithRole "users", tableWithRole "staff"], []⟩ _ rfl hperm
  obtain ⟨second, hsecond⟩ := hiff.1 ⟨first, hfirst⟩
  obtain ⟨enums, hboth⟩ := hwritten first second hfirst hsecond
  exact ⟨first, second, enums, hfirst, hsecond, hboth⟩

end TableModels.Conversion
