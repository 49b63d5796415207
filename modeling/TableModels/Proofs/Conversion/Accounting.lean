import TableModels.Proofs.Conversion.EnumReferences
import TableModels.Proofs.Mapping.DeclaredFields

/-!
# What a report accounts for

Each extracted table shows in the report of a conversion: an excluded one by its name and a kept one
by its model, whose fields are counted. What could not be mapped or parsed is listed where it stands
in the source, and nothing is listed for an excluded table.

## Implementation notes

The order and the number of the entries are both said by one equation for a list of the report. How
often a descriptor is listed also depends on the other tables, which have models of other names.
-/

namespace TableModels.Conversion

/-- The names of the audit fields that the table does not declare. -/
def absentAuditNames (table : TableDeclaration) : List String :=
  (auditFields.map (·.name)).filter fun name => !(table.fields.map (·.name)).contains name

/-- The number of fields that the model of a table has. -/
def fieldCount (options : ConversionOptions) (table : TableDeclaration) : Nat :=
  table.fields.length + if options.auditFields then (absentAuditNames table).length else 0

/-- The fields of a table that no rule maps. -/
def unmappedDeclarations (options : ConversionOptions) (dialect : Dialect)
    (table : TableDeclaration) : List FieldDeclaration :=
  table.fields.filter fun field =>
    (Mapping.mappedField dialect options.identity field).fieldType.isUnmapped

/-- The index descriptors of a table that declare no index. -/
def unparsedDescriptors (table : TableDeclaration) : List String :=
  table.indexDescriptors.filter fun descriptor => (Index.indexesOf descriptor).isEmpty

/-- The report accounts for the tables of an extraction, for the fields and index descriptors of
those that are kept, and for the entries of the registry. -/
structure AccountsFor (options : ConversionOptions) (extraction : Extraction)
    (registry : EnumRegistry) (report : ConversionReport) : Prop where
  tables : extraction.tables.partition (fun table => options.exclude.contains table.ident) =
    (excludedTables options extraction, keptTables options extraction)
  excluded : report.excludedTables = (excludedTables options extraction).map (·.ident)
  models : report.models = (keptTables options extraction).map fun table =>
    ⟨pascalCase table.ident, table.tableName, fieldCount options table⟩
  unmapped : report.unmappedFields = (keptTables options extraction).flatMap fun table =>
    (unmappedDeclarations options extraction.dialect table).map fun field =>
      ⟨pascalCase table.ident, field.name, field.expression⟩
  unmappedTypes : ∀ table ∈ keptTables options extraction,
    (modelOf options extraction.dialect table).fields.filter (·.fieldType.isUnmapped) =
      (unmappedDeclarations options extraction.dialect table).map
        (Mapping.mappedField extraction.dialect options.identity)
  unparsed : report.unparsedIndexes = (keptTables options extraction).flatMap fun table =>
    (unparsedDescriptors table).map fun descriptor => ⟨pascalCase table.ident, descriptor⟩
  descriptors : ∀ table ∈ keptTables options extraction, ∀ descriptor ∈ table.indexDescriptors,
    (Index.indexesOf descriptor ≠ [] ∧
        Index.indexesOf descriptor ⊆ (modelOf options extraction.dialect table).indexes ∧
        report.unparsedIndexes.count ⟨pascalCase table.ident, descriptor⟩ = 0) ∨
      (Index.indexesOf descriptor = [] ∧
        report.unparsedIndexes.count ⟨pascalCase table.ident, descriptor⟩ =
          table.indexDescriptors.count descriptor)
  enums : report.enums = registry.names
  increasing : report.enums.Pairwise (· < ·)

/-- Without the excluded tables the conversion goes through as well. Only their names are missing
from its report then, and the document is written from the same enumerations and tables. -/
def ExcludedLeaveNames (options : ConversionOptions) (extraction : Extraction)
    (registry : EnumRegistry) (conversion : Conversion) : Prop :=
  ∃ other, ofExtraction options { extraction with tables := keptTables options extraction } =
      .ok other ∧
    other.report = { conversion.report with
      excludedTables := []
      repairedBlocks := other.report.repairedBlocks
      documentFingerprint := other.report.documentFingerprint } ∧
    IsWrittenByTables options extraction registry.entries conversion ∧
    IsWrittenByTables options { extraction with tables := keptTables options extraction }
      registry.entries other

variable {options : ConversionOptions} {extraction : Extraction}

/-! ### The fields of a model -/

theorem any_name_map_mappedField (dialect : Dialect) (fields : List FieldDeclaration)
    (name : String) :
    ((fields.map (Mapping.mappedField dialect options.identity)).any fun field =>
        field.name == name) = (fields.map (·.name)).contains name := by
  rw [Bool.eq_iff_iff]
  simp [Mapping.name_mappedField]

/-- The fields of a model are those of its table and the audit fields that the table lacks. -/
theorem exists_fields_modelOf (options : ConversionOptions) (dialect : Dialect)
    (table : TableDeclaration) :
    ∃ added, (modelOf options dialect table).fields =
        table.fields.map (Mapping.mappedField dialect options.identity) ++ added ∧
      (∀ field ∈ added, field ∈ auditFields) ∧
      added.length = if options.auditFields then (absentAuditNames table).length else 0 := by
  have hfields : (modelOf options dialect table).fields =
      if options.auditFields then
        injectAuditFields (table.fields.map (Mapping.mappedField dialect options.identity))
      else table.fields.map (Mapping.mappedField dialect options.identity) := rfl
  rw [hfields]
  cases options.auditFields with
  | false => exact ⟨[], by simp, by simp, rfl⟩
  | true =>
      refine ⟨_, rfl, fun field hfield => List.mem_of_mem_filter hfield, ?_⟩
      simp only [any_name_map_mappedField, ↓reduceIte]
      rw [absentAuditNames, List.filter_map, List.length_map]
      rfl

theorem modelSummary_modelOf (options : ConversionOptions) (dialect : Dialect)
    (table : TableDeclaration) :
    modelSummary (modelOf options dialect table) =
      ⟨pascalCase table.ident, table.tableName, fieldCount options table⟩ := by
  obtain ⟨added, hfields, -, hlength⟩ := exists_fields_modelOf options dialect table
  rw [modelSummary, hfields, List.length_append, List.length_map, hlength]
  rfl

theorem raw?_of_mem_auditFields {field : MappedField} (h : field ∈ auditFields) :
    field.fieldType.raw? = none := by
  have hall : ∀ field ∈ auditFields, field.fieldType.raw? = none := by decide
  exact hall field h

/-- The unmapped fields of a model are the declarations that no rule maps. -/
theorem filter_fields_modelOf (options : ConversionOptions) (dialect : Dialect)
    (table : TableDeclaration) :
    (modelOf options dialect table).fields.filter (·.fieldType.isUnmapped) =
      (unmappedDeclarations options dialect table).map
        (Mapping.mappedField dialect options.identity) := by
  obtain ⟨added, hfields, haudit, -⟩ := exists_fields_modelOf options dialect table
  have hadded : added.filter (·.fieldType.isUnmapped) = [] := by
    apply List.filter_eq_nil_iff.2
    intro field hfield
    simp [TargetType.isUnmapped, raw?_of_mem_auditFields (haudit field hfield)]
  rw [hfields, List.filter_append, hadded, List.append_nil, List.filter_map]
  rfl

/-- What is listed for a model is each of its unmapped fields with its expression. -/
theorem unmappedFields_eq (model : ModelDeclaration) :
    unmappedFields model = (model.fields.filter (·.fieldType.isUnmapped)).map fun field =>
      ⟨model.name, field.name, (field.fieldType.raw?).getD ""⟩ := by
  rw [unmappedFields]
  induction model.fields with
  | nil => rfl
  | cons field rest ih =>
      rw [List.filterMap_cons, List.filter_cons, ih]
      cases hraw : field.fieldType.raw? with
      | none => simp [TargetType.isUnmapped, hraw]
      | some raw => simp [TargetType.isUnmapped, hraw]

theorem unmappedFields_modelOf (options : ConversionOptions) (dialect : Dialect)
    (table : TableDeclaration) :
    unmappedFields (modelOf options dialect table) =
      (unmappedDeclarations options dialect table).map fun field =>
        ⟨pascalCase table.ident, field.name, field.expression⟩ := by
  rw [unmappedFields_eq, filter_fields_modelOf, List.map_map]
  apply List.map_congr_left
  intro field hfield
  obtain ⟨raw, hraw⟩ := Option.isSome_iff_exists.1 (List.mem_filter.1 hfield).2
  obtain rfl := Mapping.raw?_mappedField hraw
  simp only [Function.comp_apply, hraw, Mapping.name_mappedField, Option.getD_some]
  rfl

/-! ### The index descriptors -/

theorem unparsedIndexes_assembledOf (options : ConversionOptions) (dialect : Dialect)
    (table : TableDeclaration) :
    unparsedIndexes (assembledOf options dialect table) =
      (unparsedDescriptors table).map fun descriptor =>
        ⟨pascalCase table.ident, descriptor⟩ := rfl

/-- Among tables whose models have distinct names, an entry for the model of one of them comes from
this table alone. -/
theorem count_flatMap_unparsed {tables : List TableDeclaration}
    (hnames : (tables.map fun table => pascalCase table.ident).Nodup) {table : TableDeclaration}
    (htable : table ∈ tables) (descriptor : String) :
    (tables.flatMap fun other => (unparsedDescriptors other).map fun text =>
        (⟨pascalCase other.ident, text⟩ : UnparsedIndex)).count
          ⟨pascalCase table.ident, descriptor⟩ =
      (unparsedDescriptors table).count descriptor := by
  have hother : ∀ other : TableDeclaration, pascalCase other.ident ≠ pascalCase table.ident →
      ((unparsedDescriptors other).map fun text =>
        (⟨pascalCase other.ident, text⟩ : UnparsedIndex)).count
          ⟨pascalCase table.ident, descriptor⟩ = 0 := by
    intro other hne
    apply List.count_eq_zero.2
    intro hmem
    obtain ⟨text, -, heq⟩ := List.mem_map.1 hmem
    exact hne (congrArg UnparsedIndex.model heq)
  have hown : ((unparsedDescriptors table).map fun text =>
      (⟨pascalCase table.ident, text⟩ : UnparsedIndex)).count
        ⟨pascalCase table.ident, descriptor⟩ = (unparsedDescriptors table).count descriptor := by
    rw [List.count, List.countP_map, List.count]
    apply List.countP_congr
    simp
  induction tables with
  | nil => cases htable
  | cons first rest ih =>
      rw [List.map_cons, List.nodup_cons] at hnames
      rw [List.flatMap_cons, List.count_append]
      rcases List.mem_cons.1 htable with rfl | hrest
      · have hzero : (rest.flatMap fun other => (unparsedDescriptors other).map fun text =>
            (⟨pascalCase other.ident, text⟩ : UnparsedIndex)).count
              ⟨pascalCase table.ident, descriptor⟩ = 0 := by
          apply List.count_eq_zero.2
          intro hmem
          obtain ⟨other, hmember, htext⟩ := List.mem_flatMap.1 hmem
          apply List.count_eq_zero.1 (hother other _) htext
          intro heq
          exact hnames.1 (List.mem_map.2 ⟨other, hmember, heq⟩)
        rw [hown, hzero, Nat.add_zero]
      · have hne : pascalCase first.ident ≠ pascalCase table.ident := by
          intro heq
          exact hnames.1 (List.mem_map.2 ⟨table, hrest, heq.symm⟩)
        rw [hother first hne, Nat.zero_add, ih hnames.2 hrest]

theorem indexes_modelOf (options : ConversionOptions) (dialect : Dialect)
    (table : TableDeclaration) :
    (modelOf options dialect table).indexes =
      table.indexDescriptors.flatMap Index.indexesOf := rfl

/-- A descriptor declares indexes of its model or it is listed, as often as it stands there. -/
theorem count_unparsedDescriptors (table : TableDeclaration) (descriptor : String) :
    (unparsedDescriptors table).count descriptor =
      if Index.indexesOf descriptor = [] then table.indexDescriptors.count descriptor else 0 := by
  rw [unparsedDescriptors]
  split
  · rename_i hnone
    exact List.count_filter (by simp [hnone])
  · rename_i hsome
    apply List.count_eq_zero.2
    intro hmem
    exact hsome (by simpa using (List.mem_filter.1 hmem).2)

/-! ### Excluded tables -/

/-- Only kept tables ask for anything. -/
theorem requests_eq_flatMap_keptTables (options : ConversionOptions) (extraction : Extraction) :
    requests options extraction = (keptTables options extraction).flatMap fun table =>
      table.fields.flatMap (Mapping.fieldRequests extraction.dialect) := by
  rw [requests, keptTables]
  induction extraction.tables with
  | nil => rfl
  | cons table rest ih =>
      rw [List.flatMap_cons, ih, List.filter_cons, tableRequests]
      cases options.exclude.contains table.ident <;> rfl

theorem keptTables_keptTables (options : ConversionOptions) (extraction : Extraction) :
    keptTables options { extraction with tables := keptTables options extraction } =
      keptTables options extraction := by
  simp [keptTables]

theorem excludedTables_keptTables (options : ConversionOptions) (extraction : Extraction) :
    excludedTables options { extraction with tables := keptTables options extraction } = [] := by
  simp [keptTables, excludedTables]

theorem requests_keptTables (options : ConversionOptions) (extraction : Extraction) :
    requests options { extraction with tables := keptTables options extraction } =
      requests options extraction := by
  rw [requests_eq_flatMap_keptTables, requests_eq_flatMap_keptTables, keptTables_keptTables]

/-- What a conversion reports besides the document and the names of excluded tables comes from the
kept tables. -/
theorem report_of_ofOutcomes {registry : EnumRegistry} {conversion : Conversion}
    (h : ofOutcomes options extraction (outcomes options extraction) registry = .ok conversion) :
    conversion.report =
      { dialect := extraction.dialect.name
        models := (keptTables options extraction).map fun table =>
          modelSummary (modelOf options extraction.dialect table)
        enums := registry.entries.map (·.name)
        excludedTables := (excludedTables options extraction).map (·.ident)
        skippedLines := extraction.skipped
        unmappedFields := (keptTables options extraction).flatMap fun table =>
          unmappedFields (modelOf options extraction.dialect table)
        unparsedIndexes := (keptTables options extraction).flatMap fun table =>
          unparsedIndexes (assembledOf options extraction.dialect table)
        enumConflicts := registry.conflicts
        repairedBlocks := conversion.report.repairedBlocks
        documentFingerprint := conversion.report.documentFingerprint } := by
  have hwritten := isWrittenByTables_of_ofOutcomes h
  have hrest : conversion.report.dialect = extraction.dialect.name ∧
      conversion.report.skippedLines = extraction.skipped := by
    simp only [ofOutcomes] at h
    split at h
    · cases h
    · cases h
      exact ⟨rfl, rfl⟩
  rw [← hwritten.models, ← hwritten.enums, ← hwritten.excluded, ← hwritten.unmapped,
    ← hwritten.unparsed, ← hrest.1, ← hrest.2, ← enumConflicts_of_ofOutcomes h]

theorem excludedLeaveNames_of_ofOutcomes {registry : EnumRegistry} {conversion : Conversion}
    (hregister : (EnumRegistry.empty options.enumConflict).registerAll
      (requests options extraction) = .ok registry)
    (h : ofOutcomes options extraction (outcomes options extraction) registry = .ok conversion) :
    ExcludedLeaveNames options extraction registry conversion := by
  have hvalid := exists_ofOutcomes_iff.1 ⟨conversion, h⟩
  rw [← keptTables_keptTables] at hvalid
  obtain ⟨other, hother⟩ : ∃ other, ofOutcomes options
      { extraction with tables := keptTables options extraction }
      (outcomes options { extraction with tables := keptTables options extraction }) registry =
        .ok other :=
    exists_ofOutcomes_iff.2 hvalid
  refine ⟨other, ofExtraction_eq_ok_iff.2 ⟨registry, ?_, hother⟩, ?_,
    isWrittenByTables_of_ofOutcomes h, isWrittenByTables_of_ofOutcomes hother⟩
  · rw [requests_keptTables]
    exact hregister
  · rw [report_of_ofOutcomes hother, report_of_ofOutcomes h, keptTables_keptTables,
      excludedTables_keptTables]
    rfl

/-! ### Conversions -/

theorem accountsFor_of_ofOutcomes {registry : EnumRegistry} {conversion : Conversion}
    (hregister : (EnumRegistry.empty options.enumConflict).registerAll
      (requests options extraction) = .ok registry)
    (h : ofOutcomes options extraction (outcomes options extraction) registry = .ok conversion) :
    AccountsFor options extraction registry conversion.report := by
  have hwritten := isWrittenByTables_of_ofOutcomes h
  have hunparsed := hwritten.unparsed
  simp only [unparsedIndexes_assembledOf] at hunparsed
  have hvalid := exists_ofOutcomes_iff.1 ⟨conversion, h⟩
  have hnames := (ModelDeclaration.validateAfter_eq_ok_iff.1 hvalid).names.1
  rw [List.map_map] at hnames
  constructor
  case tables => exact List.partition_eq_filter_filter
  case excluded => exact hwritten.excluded
  case models =>
    rw [hwritten.models]
    exact List.map_congr_left fun table _ => modelSummary_modelOf options extraction.dialect table
  case unmapped => simpa only [unmappedFields_modelOf] using hwritten.unmapped
  case unmappedTypes =>
    intro table _
    exact filter_fields_modelOf options extraction.dialect table
  case unparsed => exact hunparsed
  case descriptors =>
    intro table htable descriptor hdescriptor
    rw [hunparsed, count_flatMap_unparsed hnames htable, count_unparsedDescriptors]
    by_cases hnone : Index.indexesOf descriptor = []
    · exact Or.inr ⟨hnone, if_pos hnone⟩
    · refine Or.inl ⟨hnone, ?_, if_neg hnone⟩
      intro index hindex
      rw [indexes_modelOf]
      exact List.mem_flatMap.2 ⟨descriptor, hdescriptor, hindex⟩
  case enums => exact hwritten.enums
  case increasing =>
    rw [hwritten.enums, List.pairwise_map]
    exact EnumRegistry.registerAll_isIncreasing hregister List.Pairwise.nil

/-- The report of a conversion accounts for every extracted table and field, and an excluded table
leaves nothing but its name. -/
theorem report_accounts_for_tables {source : String} {conversion : Conversion}
    (h : ofSource options source = .ok conversion) :
    ∃ registry, (EnumRegistry.empty options.enumConflict).registerAll
        (requests options (extract source options.extraction)) = .ok registry ∧
      AccountsFor options (extract source options.extraction) registry conversion.report ∧
      ExcludedLeaveNames options (extract source options.extraction) registry conversion := by
  obtain ⟨registry, hregister, houtcomes⟩ := ofSource_eq_ok_iff.1 h
  exact ⟨registry, hregister, accountsFor_of_ofOutcomes hregister houtcomes,
    excludedLeaveNames_of_ofOutcomes hregister houtcomes⟩

/-- A source with a table of places and with a log. One index of the places is sorted. -/
def placeSource : String :=
  "const places = mysqlTable(\"places\", \x7b spot: geometry(\"spot\"), createdBy: text() \x7d, "
    ++ "(t) => [index(\"by_spot\").on(t.spot), index(\"newest\").on(t.spot.desc())]);\n"
    ++ "const logs = mysqlTable(\"logs\", \x7b line: text() \x7d);"

/-- What is extracted from it. -/
def placeExtraction : Extraction where
  dialect := .mysql
  tables := [
    { ident := "places"
      tableName := "places"
      line := 1
      fields := [⟨"spot", "geometry(\"spot\")", 1⟩, ⟨"createdBy", "text()", 1⟩]
      indexBlock := some
        "(t) => [index(\"by_spot\").on(t.spot), index(\"newest\").on(t.spot.desc())]"
      indexDescriptors :=
        ["index(\"by_spot\").on(t.spot)", "index(\"newest\").on(t.spot.desc())"] },
    { ident := "logs"
      tableName := "logs"
      line := 2
      fields := [⟨"line", "text()", 2⟩]
      indexBlock := none
      indexDescriptors := [] }]
  skipped := []

theorem report_accounts_for_tables_places :
    ∃ conversion, ofSource { exclude := ["logs"] } placeSource = .ok conversion ∧
      conversion.report.excludedTables = ["logs"] ∧
      conversion.report.models = [⟨"Places", "places", 5⟩] ∧
      conversion.report.unmappedFields = [⟨"Places", "spot", "geometry(\"spot\")"⟩] ∧
      conversion.report.unparsedIndexes =
        [⟨"Places", "index(\"newest\").on(t.spot.desc())"⟩] := by
  have hextract : extract placeSource
      (ConversionOptions.extraction { exclude := ["logs"] }) = placeExtraction := by
    decide +kernel
  obtain ⟨conversion, hconversion⟩ :
      ∃ conversion, ofExtraction { exclude := ["logs"] } placeExtraction = .ok conversion :=
    exists_eq_ok_of_isOk (by decide +kernel)
  have hsource : ofSource { exclude := ["logs"] } placeSource = .ok conversion := by
    rw [ofSource, hextract]
    exact hconversion
  obtain ⟨registry, -, haccounts, -⟩ := report_accounts_for_tables hsource
  rw [hextract] at haccounts
  refine ⟨conversion, hsource, ?_, ?_, ?_, ?_⟩
  · exact haccounts.excluded.trans (by decide +kernel)
  · exact haccounts.models.trans (by decide +kernel)
  · exact haccounts.unmapped.trans (by decide +kernel)
  · exact haccounts.unparsed.trans (by decide +kernel)

end TableModels.Conversion
