import TableModels.Proofs.Conversion.FlatLines
import TableModels.Proofs.Naming.PlainWords

/-!
# Names that are written bare

The blocks of a document are opened by names that stand without quotes, and so do the lines of
fields. A value of an enumeration is made an identifier before it is written, with the value itself
beside it. Nothing of the kind is done to the names of enumerations, models and fields: fields go by
the names that the source gives them, and enumerations and models by Pascal case. So they are
identifiers exactly when the names in the source are fit for it.
-/

namespace TableModels.Conversion

/-- Enumerations, models and fields go by identifiers. -/
structure HasBareNames (enums : List EnumDeclaration) (models : List ModelDeclaration) : Prop where
  enumerationNames : ∀ declaration ∈ enums, isIdentifier declaration.name = true
  modelNames : ∀ model ∈ models, isIdentifier model.name = true
  fieldNames : ∀ model ∈ models, ∀ field ∈ model.fields, isIdentifier field.name = true

/-- The names in the source are fit for the document: the tables that are kept and the enumerations
for which their fields ask have plain words, and the fields themselves are identifiers. -/
structure NamesPlainly (options : ConversionOptions) (extraction : Extraction) : Prop where
  enumerations : ∀ request ∈ requests options extraction, HasPlainWords request.1
  tables : ∀ table ∈ keptTables options extraction, HasPlainWords table.ident
  fields : ∀ table ∈ keptTables options extraction, ∀ field ∈ table.fields,
    isIdentifier field.name = true

variable {options : ConversionOptions} {extraction : Extraction} {registry : EnumRegistry}

theorem isIdentifier_of_mem_auditFields {field : MappedField} (h : field ∈ auditFields) :
    isIdentifier field.name = true := by
  have hall : ∀ audit ∈ auditFields, isIdentifier audit.name = true := by decide
  exact hall field h

/-- The fields of a model are identifiers when those of its table are, for audit fields always
are. -/
theorem isIdentifier_fields_iff {dialect : Dialect} {table : TableDeclaration} :
    (∀ field ∈ (modelOf options dialect table).fields, isIdentifier field.name = true) ↔
      ∀ field ∈ table.fields, isIdentifier field.name = true := by
  constructor
  · intro h declared hdeclared
    have hmapped := h _ (mem_fields_modelOf.mpr (Or.inl ⟨declared, hdeclared, rfl⟩))
    rwa [Mapping.name_mappedField] at hmapped
  · intro h field hfield
    obtain ⟨declared, hdeclared, rfl⟩ | ⟨-, haudit, -⟩ := mem_fields_modelOf.mp hfield
    · rw [Mapping.name_mappedField]
      exact h declared hdeclared
    · exact isIdentifier_of_mem_auditFields haudit

/-- The names of the enumerations come of the requests. -/
theorem isIdentifier_enums_iff
    (h : (EnumRegistry.empty options.enumConflict).registerAll (requests options extraction) =
      .ok registry) :
    (∀ declaration ∈ registry.entries, isIdentifier declaration.name = true) ↔
      ∀ request ∈ requests options extraction, HasPlainWords request.1 := by
  have hnames : ∀ name, name ∈ registry.names ↔
      ∃ request ∈ requests options extraction, name = pascalCase request.1 := by
    intro name
    have hempty : name ∉ (EnumRegistry.empty options.enumConflict).names := List.not_mem_nil
    rw [EnumRegistry.registerAll_mem_names h]
    exact or_iff_left hempty
  constructor
  · intro hall request hrequest
    obtain ⟨declaration, hdeclaration, hname⟩ :=
      List.mem_map.mp ((hnames _).mpr ⟨request, hrequest, rfl⟩)
    rw [← isIdentifier_pascalCase_iff, ← hname]
    exact hall declaration hdeclaration
  · intro hall declaration hdeclaration
    obtain ⟨request, hrequest, hname⟩ := (hnames _).mp (List.mem_map_of_mem hdeclaration)
    rw [hname, isIdentifier_pascalCase_iff]
    exact hall request hrequest

theorem modelOf_mem_modelsOf {table : TableDeclaration}
    (h : table ∈ keptTables options extraction) :
    modelOf options extraction.dialect table ∈ modelsOf options extraction :=
  List.mem_map_of_mem h

/-- A model goes by the name of its table in Pascal case. -/
theorem name_modelOf (options : ConversionOptions) (dialect : Dialect) (table : TableDeclaration) :
    (modelOf options dialect table).name = pascalCase table.ident := rfl

theorem hasBareNames_iff
    (h : (EnumRegistry.empty options.enumConflict).registerAll (requests options extraction) =
      .ok registry) :
    HasBareNames registry.entries (modelsOf options extraction) ↔
      NamesPlainly options extraction := by
  constructor
  · rintro ⟨henums, hmodels, hfields⟩
    constructor
    case enumerations => exact (isIdentifier_enums_iff h).mp henums
    case tables =>
      intro table htable
      have hmodel := hmodels _ (modelOf_mem_modelsOf htable)
      rw [name_modelOf] at hmodel
      exact (isIdentifier_pascalCase_iff table.ident).mp hmodel
    case fields =>
      intro table htable
      exact isIdentifier_fields_iff.mp (hfields _ (modelOf_mem_modelsOf htable))
  · rintro ⟨hrequests, htables, hfields⟩
    constructor
    case enumerationNames => exact (isIdentifier_enums_iff h).mpr hrequests
    case modelNames =>
      intro model hmodel
      obtain ⟨table, htable, rfl⟩ := List.mem_map.mp hmodel
      rw [name_modelOf]
      exact (isIdentifier_pascalCase_iff table.ident).mpr (htables table htable)
    case fieldNames =>
      intro model hmodel
      obtain ⟨table, htable, rfl⟩ := List.mem_map.mp hmodel
      exact isIdentifier_fields_iff.mpr (hfields table htable)

/-- The names that a conversion writes bare are identifiers exactly when the names in its source are
fit for it. -/
theorem bare_names_iff {source : String} {conversion : Conversion}
    (h : ofSource options source = .ok conversion) :
    ∃ registry, (EnumRegistry.empty options.enumConflict).registerAll
        (requests options (extract source options.extraction)) = .ok registry ∧
      IsWrittenFrom options conversion registry.entries
        (modelsOf options (extract source options.extraction)) ∧
      (HasBareNames registry.entries (modelsOf options (extract source options.extraction)) ↔
        NamesPlainly options (extract source options.extraction)) := by
  obtain ⟨registry, hregister, houtcomes⟩ := ofSource_eq_ok_iff.mp h
  exact ⟨registry, hregister, isWrittenFrom_modelsOf houtcomes, hasBareNames_iff hregister⟩

theorem bare_names_iff_users :
    ∃ conversion, ∃ registry : EnumRegistry,
      ofSource {} (tableWithEnum "users" "role") = .ok conversion ∧
      IsWrittenFrom {} conversion registry.entries
        (modelsOf {} (extractedWithEnum "users" "role")) ∧
      HasBareNames registry.entries (modelsOf {} (extractedWithEnum "users" "role")) := by
  have hextract : extract (tableWithEnum "users" "role") (ConversionOptions.extraction {}) =
      extractedWithEnum "users" "role" := by decide +kernel
  have hplain : NamesPlainly {} (extractedWithEnum "users" "role") :=
    ⟨by decide +kernel, by decide +kernel, by decide +kernel⟩
  obtain ⟨conversion, hconversion⟩ :
      ∃ conversion, ofExtraction {} (extractedWithEnum "users" "role") = .ok conversion :=
    exists_eq_ok_of_isOk (by decide +kernel)
  have hsource : ofSource {} (tableWithEnum "users" "role") = .ok conversion := by
    rw [ofSource, hextract]
    exact hconversion
  obtain ⟨registry, -, hwritten, hiff⟩ := bare_names_iff hsource
  rw [hextract] at hwritten hiff
  exact ⟨conversion, registry, hsource, hwritten, hiff.mpr hplain⟩

/-- A source in which the table, one of its fields and an enumeration have names that identifiers of
the document cannot have. -/
def oddSource : String :=
  "const user$ = mysqlTable(\"users\", \x7b total$: int(\"total\"), "
    ++ "kind: mysqlEnum(\"1st\", [\"a\"]) \x7d);"

/-- What is extracted from it. -/
def oddExtraction : Extraction where
  dialect := .mysql
  tables := [{
    ident := "user$"
    tableName := "users"
    line := 1
    fields := [⟨"total$", "int(\"total\")", 1⟩, ⟨"kind", "mysqlEnum(\"1st\", [\"a\"])", 1⟩]
    indexBlock := none
    indexDescriptors := [] }]
  skipped := []

/-- Names that are no identifiers are written all the same. -/
theorem odd_names_written :
    ∃ conversion, ∃ registry : EnumRegistry, ofSource {} oddSource = .ok conversion ∧
      IsWrittenFrom {} conversion registry.entries (modelsOf {} oddExtraction) ∧
      (∃ declaration ∈ registry.entries, isIdentifier declaration.name = false) ∧
      (∃ model ∈ modelsOf {} oddExtraction, isIdentifier model.name = false) ∧
      ∃ model ∈ modelsOf {} oddExtraction, ∃ field ∈ model.fields,
        isIdentifier field.name = false := by
  have hextract : extract oddSource (ConversionOptions.extraction {}) = oddExtraction := by
    decide +kernel
  obtain ⟨conversion, hconversion⟩ :
      ∃ conversion, ofExtraction {} oddExtraction = .ok conversion :=
    exists_eq_ok_of_isOk (by decide +kernel)
  have hsource : ofSource {} oddSource = .ok conversion := by
    rw [ofSource, hextract]
    exact hconversion
  obtain ⟨registry, hregister, houtcomes⟩ := ofExtraction_eq_ok_iff.mp hconversion
  have hrequest : ("1st", ["a"]) ∈ requests {} oddExtraction := by decide +kernel
  have hname : pascalCase "1st" ∈ registry.names :=
    (EnumRegistry.registerAll_mem_names hregister _).mpr (Or.inl ⟨_, hrequest, rfl⟩)
  obtain ⟨declaration, hdeclaration, hdeclared⟩ := List.mem_map.mp hname
  refine ⟨conversion, registry, hsource, isWrittenFrom_modelsOf houtcomes,
    ⟨declaration, hdeclaration, ?_⟩, by decide +kernel, by decide +kernel⟩
  rw [hdeclared]
  decide +kernel

end TableModels.Conversion
