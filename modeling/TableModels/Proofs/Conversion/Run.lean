import TableModels.Conversion.Pipeline
import TableModels.Proofs.Mapping.FieldRequests

/-!
# The run of a conversion

A conversion registers what the fields of its tables ask for and then writes down what came of it.
The registrations are the only thing that goes from one table to the next, and the outcomes of the
tables can be told without them. `ofExtraction_eq_ok_iff` takes a successful conversion apart in
this way.
-/

namespace TableModels.Conversion

/-- What the fields of a table ask to be registered, unless the table is excluded. -/
def tableRequests (options : ConversionOptions) (dialect : Dialect) (table : TableDeclaration) :
    List (String × List String) :=
  if options.exclude.contains table.ident then []
  else table.fields.flatMap (Mapping.fieldRequests dialect)

/-- The model of a table that is kept, provided that its enumerations can be registered. -/
def assembledOf (options : ConversionOptions) (dialect : Dialect) (table : TableDeclaration) :
    Assembled :=
  assemble options.auditFields table
    (table.fields.map (Mapping.mappedField dialect options.identity))

/-- The outcome of a table, provided that its enumerations can be registered. -/
def outcomeOf (options : ConversionOptions) (dialect : Dialect) (table : TableDeclaration) :
    TableOutcome :=
  if options.exclude.contains table.ident then .excluded table.ident
  else .kept (assembledOf options dialect table)

/-- What the tables of an extraction ask to be registered, in order. -/
def requests (options : ConversionOptions) (extraction : Extraction) :
    List (String × List String) :=
  extraction.tables.flatMap (tableRequests options extraction.dialect)

/-- The outcomes of the tables of an extraction. -/
def outcomes (options : ConversionOptions) (extraction : Extraction) : List TableOutcome :=
  extraction.tables.map (outcomeOf options extraction.dialect)

/-- The tables that become models. -/
def keptTables (options : ConversionOptions) (extraction : Extraction) : List TableDeclaration :=
  extraction.tables.filter fun table => !options.exclude.contains table.ident

theorem tableOutcome_eq (options : ConversionOptions) (dialect : Dialect)
    (registry : EnumRegistry) (table : TableDeclaration) :
    tableOutcome options dialect registry table =
      (registry.registerAll (tableRequests options dialect table)).map fun after =>
        (outcomeOf options dialect table, after) := by
  unfold tableOutcome tableRequests outcomeOf
  split
  · rfl
  · rw [Mapping.mapFields_eq]
    cases registry.registerAll (table.fields.flatMap (Mapping.fieldRequests dialect)) <;> rfl

theorem tableOutcomes_eq (options : ConversionOptions) (dialect : Dialect)
    (registry : EnumRegistry) (tables : List TableDeclaration) :
    tableOutcomes options dialect registry tables =
      (registry.registerAll (tables.flatMap (tableRequests options dialect))).map fun last =>
        (tables.map (outcomeOf options dialect), last) := by
  induction tables generalizing registry with
  | nil => rfl
  | cons table rest ih =>
      rw [tableOutcomes, tableOutcome_eq, List.flatMap_cons, EnumRegistry.registerAll_append]
      cases registry.registerAll (tableRequests options dialect table) with
      | error error => rfl
      | ok after =>
          simp only [Except.map, Except.bind, ih]
          cases after.registerAll (rest.flatMap (tableRequests options dialect)) <;> rfl

/-- A conversion goes through when its registrations do and its models are consistent. -/
theorem ofExtraction_eq_ok_iff {options : ConversionOptions} {extraction : Extraction}
    {conversion : Conversion} :
    ofExtraction options extraction = .ok conversion ↔
      ∃ registry, (EnumRegistry.empty options.enumConflict).registerAll
          (requests options extraction) = .ok registry ∧
        ofOutcomes options extraction (outcomes options extraction) registry = .ok conversion := by
  rw [ofExtraction, tableOutcomes_eq, ← requests, ← outcomes]
  cases (EnumRegistry.empty options.enumConflict).registerAll (requests options extraction) with
  | error error => simp [Except.map]
  | ok registry => simp [Except.map]

theorem ofSource_eq_ok_iff {options : ConversionOptions} {source : String}
    {conversion : Conversion} :
    ofSource options source = .ok conversion ↔
      ∃ registry, (EnumRegistry.empty options.enumConflict).registerAll
          (requests options (extract source options.extraction)) = .ok registry ∧
        ofOutcomes options (extract source options.extraction)
          (outcomes options (extract source options.extraction)) registry = .ok conversion :=
  ofExtraction_eq_ok_iff

/-! ### Tables that are kept -/

/-- Only the fields of kept tables ask for anything. -/
theorem mem_requests_iff {options : ConversionOptions} {extraction : Extraction}
    {request : String × List String} :
    request ∈ requests options extraction ↔
      ∃ table ∈ keptTables options extraction, ∃ field ∈ table.fields,
        request ∈ Mapping.fieldRequests extraction.dialect field := by
  simp only [requests, keptTables, List.mem_flatMap, List.mem_filter, Bool.not_eq_true',
    tableRequests]
  constructor
  · rintro ⟨table, htable, hrequest⟩
    split at hrequest
    · cases hrequest
    · rename_i hkept
      exact ⟨table, ⟨htable, by simpa using hkept⟩, List.mem_flatMap.1 hrequest⟩
  · rintro ⟨table, ⟨htable, hkept⟩, hrequest⟩
    refine ⟨table, htable, ?_⟩
    rw [hkept]
    exact List.mem_flatMap.2 hrequest

/-- There is a model for each table that is kept, in their order. -/
theorem kept_outcomes (options : ConversionOptions) (extraction : Extraction) :
    (outcomes options extraction).filterMap TableOutcome.kept? =
      (keptTables options extraction).map (assembledOf options extraction.dialect) := by
  rw [outcomes, keptTables]
  induction extraction.tables with
  | nil => rfl
  | cons table rest ih =>
      rw [List.map_cons, List.filterMap_cons, ih, List.filter_cons, outcomeOf]
      cases options.exclude.contains table.ident <;> rfl

/-! ### What a conversion says -/

/-- A successful conversion has set aside the conflicts of its registry. -/
theorem enumConflicts_of_ofOutcomes {options : ConversionOptions} {extraction : Extraction}
    {outcomes : List TableOutcome} {registry : EnumRegistry} {conversion : Conversion}
    (h : ofOutcomes options extraction outcomes registry = .ok conversion) :
    conversion.report.enumConflicts = registry.conflicts := by
  simp only [ofOutcomes] at h
  split at h
  · cases h
  · cases h
    rfl

/-- The policy of a registry does not show in the conversion that it leads to. -/
theorem ofOutcomes_withPolicy (options : ConversionOptions) (extraction : Extraction)
    (outcomes : List TableOutcome) (registry : EnumRegistry) (policy : EnumConflictPolicy) :
    ofOutcomes options extraction outcomes (registry.withPolicy policy) =
      ofOutcomes options extraction outcomes registry := rfl

/-! ### The two policies -/

/-- The policy of a conversion reaches nothing but its registry. -/
theorem ofSource_withPolicy_eq_ok_iff {options : ConversionOptions} {source : String}
    {policy : EnumConflictPolicy} {conversion : Conversion} :
    ofSource { options with enumConflict := policy } source = .ok conversion ↔
      ∃ registry, (EnumRegistry.empty policy).registerAll
          (requests options (extract source options.extraction)) = .ok registry ∧
        ofOutcomes options (extract source options.extraction)
          (outcomes options (extract source options.extraction)) registry = .ok conversion :=
  ofSource_eq_ok_iff

/-- A conversion goes through under the policy `error` exactly when it goes through under
`firstWins` without a conflict, and it is the same conversion then. -/
theorem ofSource_error_iff (options : ConversionOptions) (source : String)
    (conversion : Conversion) :
    ofSource { options with enumConflict := .error } source = .ok conversion ↔
      ofSource { options with enumConflict := .firstWins } source = .ok conversion ∧
        conversion.report.enumConflicts = [] := by
  rw [ofSource_withPolicy_eq_ok_iff, ofSource_withPolicy_eq_ok_iff]
  constructor
  · rintro ⟨registry, hregister, hconversion⟩
    obtain ⟨other, hother, hconflicts, rfl⟩ :=
      EnumRegistry.registerAll_empty_error_iff.1 hregister
    rw [ofOutcomes_withPolicy] at hconversion
    refine ⟨⟨other, hother, hconversion⟩, ?_⟩
    rw [enumConflicts_of_ofOutcomes hconversion]
    exact hconflicts
  · rintro ⟨⟨registry, hregister, hconversion⟩, hnone⟩
    rw [enumConflicts_of_ofOutcomes hconversion] at hnone
    have herror := EnumRegistry.registerAll_empty_error_iff.2 ⟨registry, hregister, hnone, rfl⟩
    rw [← ofOutcomes_withPolicy _ _ _ _ .error] at hconversion
    exact ⟨registry.withPolicy .error, herror, hconversion⟩

end TableModels.Conversion
