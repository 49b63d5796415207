import TableModels.Proofs.Conversion.DeclarationNames
import TableModels.Proofs.Conversion.TableOrder
import TableModels.Proofs.Document.EnumBlock

/-!
# References to enumerations

A field refers to an enumeration by its type, and to a member of it by its default. Types and
enumerations come of the same requests, so each enumeration of a document is the type of a field and
no type is without its enumeration. A default is only as good as the values that were kept: when no
definition was set aside these are the values that the field itself declares, and the line of the
value in the block begins with the name that the default is written by.
-/

namespace TableModels.Conversion

/-- The enumerations are those that are the types of fields. -/
structure ReferencesClosed (enums : List EnumDeclaration) (models : List ModelDeclaration) :
    Prop where
  declared : ∀ model ∈ models, ∀ field ∈ model.fields, ∀ enumeration,
    field.fieldType = .enumeration enumeration → enumeration ∈ enums.map (·.name)
  used : ∀ declaration ∈ enums, ∃ model ∈ models, ∃ field ∈ model.fields,
    field.fieldType = .enumeration declaration.name

/-- The declaration gives one of its own values as the default. -/
def HasOwnDefault (field : FieldDeclaration) (value : String) : Prop :=
  ∃ expr, Column.parse field.expression = .ok expr ∧ expr.default? = some (.string value) ∧
    ∃ declared, Mapping.declaredEnum? expr = some declared ∧ value ∈ declared.2

/-- The field has one default, and the block of the enumeration declares it. -/
def DefaultDeclared (enums : List EnumDeclaration) (enumeration : String) (field : MappedField) :
    Prop :=
  ∃ member, (∀ other, .defaultEnum other ∈ field.attributes ↔ other = member) ∧
    ∃ declaration ∈ enums, declaration.name = enumeration ∧
      Document.DeclaresMember declaration member

/-- The defaults that are values of the enumerations in whose columns they stand are declared in the
blocks of these enumerations. -/
def DefaultsClosed (options : ConversionOptions) (extraction : Extraction)
    (enums : List EnumDeclaration) : Prop :=
  ∀ table ∈ keptTables options extraction, ∀ field ∈ table.fields, ∀ value enumeration,
    HasOwnDefault field value →
      (Mapping.mappedField extraction.dialect options.identity field).fieldType =
          .enumeration enumeration →
        Mapping.mappedField extraction.dialect options.identity field ∈
            (modelOf options extraction.dialect table).fields ∧
          DefaultDeclared enums enumeration
            (Mapping.mappedField extraction.dialect options.identity field)

variable {options : ConversionOptions} {extraction : Extraction}

/-! ### The fields of a model -/

theorem fieldType_ne_of_mem_auditFields {field : MappedField} (h : field ∈ auditFields)
    (enumeration : String) : field.fieldType ≠ .enumeration enumeration := by
  simp only [auditFields, List.mem_cons, List.not_mem_nil, or_false] at h
  rcases h with rfl | rfl | rfl | rfl <;> intro heq <;> cases heq

theorem mem_fields_modelOf {dialect : Dialect} {table : TableDeclaration} {field : MappedField} :
    field ∈ (modelOf options dialect table).fields ↔
      (∃ declared ∈ table.fields, Mapping.mappedField dialect options.identity declared = field) ∨
        (options.auditFields = true ∧ field ∈ auditFields ∧
          ¬ ∃ declared ∈ table.fields,
            (Mapping.mappedField dialect options.identity declared).name = field.name) := by
  have hmodel : (modelOf options dialect table).fields =
      if options.auditFields then
        injectAuditFields (table.fields.map (Mapping.mappedField dialect options.identity))
      else table.fields.map (Mapping.mappedField dialect options.identity) := rfl
  rw [hmodel]
  cases options.auditFields <;> simp [injectAuditFields]

/-- The enumerations that are types in a model are those that the fields of its table ask for. -/
theorem exists_field_modelOf_iff {dialect : Dialect} {table : TableDeclaration}
    {enumeration : String} :
    (∃ field ∈ (modelOf options dialect table).fields,
        field.fieldType = .enumeration enumeration) ↔
      ∃ field ∈ table.fields, ∃ request ∈ Mapping.fieldRequests dialect field,
        enumeration = pascalCase request.1 := by
  simp only [mem_fields_modelOf]
  constructor
  · rintro ⟨field, ⟨declared, hdeclared, rfl⟩ | ⟨-, haudit, -⟩, htype⟩
    · exact ⟨declared, hdeclared, Mapping.fieldType_mappedField_eq_enumeration_iff.1 htype⟩
    · exact absurd htype (fieldType_ne_of_mem_auditFields haudit _)
  · rintro ⟨declared, hdeclared, hrequest⟩
    exact ⟨_, Or.inl ⟨declared, hdeclared, rfl⟩,
      Mapping.fieldType_mappedField_eq_enumeration_iff.2 hrequest⟩

/-! ### The entries of the registry -/

theorem referencesClosed_of_registerAll {registry : EnumRegistry}
    (h : (EnumRegistry.empty options.enumConflict).registerAll (requests options extraction) =
      .ok registry) :
    ReferencesClosed registry.entries
      ((keptTables options extraction).map (modelOf options extraction.dialect)) := by
  have hnames : ∀ enumeration, enumeration ∈ registry.names ↔
      ∃ table ∈ keptTables options extraction,
        ∃ field ∈ (modelOf options extraction.dialect table).fields,
          field.fieldType = .enumeration enumeration := by
    intro enumeration
    simp only [mem_names_iff h, exists_field_modelOf_iff]
  constructor
  · intro model hmodel field hfield enumeration htype
    obtain ⟨table, htable, rfl⟩ := List.mem_map.1 hmodel
    exact (hnames enumeration).2 ⟨table, htable, field, hfield, htype⟩
  · intro declaration hdeclaration
    have hname : declaration.name ∈ registry.names := List.mem_map_of_mem hdeclaration
    obtain ⟨table, htable, hfield⟩ := (hnames declaration.name).1 hname
    exact ⟨_, List.mem_map_of_mem htable, hfield⟩

/-- Where nothing is set aside, the values that a field declares are the values of its
enumeration. -/
theorem definition_mem_entries {registry : EnumRegistry}
    (h : (EnumRegistry.empty options.enumConflict).registerAll (requests options extraction) =
      .ok registry) (hconflicts : registry.conflicts = [])
    {request : String × List String} (hrequest : request ∈ requests options extraction) :
    EnumRegistry.definition request ∈ registry.entries := by
  apply (EnumRegistry.registerAll_mem_entries h hconflicts _).2
  exact Or.inl (List.mem_map_of_mem hrequest)

/-- The default of a field that declares it is written by a member of its enumeration. -/
theorem defaultDeclared_of_registerAll {registry : EnumRegistry}
    (h : (EnumRegistry.empty options.enumConflict).registerAll (requests options extraction) =
      .ok registry) (hconflicts : registry.conflicts = [])
    {table : TableDeclaration} (htable : table ∈ keptTables options extraction)
    {field : FieldDeclaration} (hfield : field ∈ table.fields) {value enumeration : String}
    (hdefault : HasOwnDefault field value)
    (htype : (Mapping.mappedField extraction.dialect options.identity field).fieldType =
      .enumeration enumeration) :
    DefaultDeclared registry.entries enumeration
      (Mapping.mappedField extraction.dialect options.identity field) := by
  obtain ⟨expr, hparse, hstring, declared, hdeclared, hvalue⟩ := hdefault
  obtain ⟨request, hrequest, rfl⟩ := Mapping.fieldType_mappedField_eq_enumeration_iff.1 htype
  have hasked : request ∈ requests options extraction :=
    mem_requests_iff.2 ⟨table, htable, field, hfield, hrequest⟩
  rw [Mapping.fieldRequests, hparse] at hrequest
  -- a field asks for what it declares
  have hsame := (Mapping.coreFieldOf_of_mem_requests hrequest options.identity "" "").1
  rw [hdeclared] at hsame
  cases hsame
  refine ⟨memberName value, ?_, EnumRegistry.definition declared,
    definition_mem_entries h hconflicts hasked, rfl, ?_⟩
  · intro other
    rw [Mapping.defaultEnum_mem_attributes_iff hparse hrequest, Mapping.enumDefault?, hstring]
    simp [eq_comm]
  · apply Document.declaresMember_iff.2
    exact ⟨value, EnumDeclaration.mem_distinct.2 hvalue, rfl⟩

/-! ### Conversions -/

/-- The references of a document to enumerations are closed, and so are those to their members
unless a definition was set aside. -/
theorem enum_references_closed {source : String} {conversion : Conversion}
    (h : ofSource options source = .ok conversion) :
    ∃ enums, IsWrittenByTables options (extract source options.extraction) enums conversion ∧
      ReferencesClosed enums ((keptTables options (extract source options.extraction)).map
        (modelOf options (extract source options.extraction).dialect)) ∧
      (conversion.report.enumConflicts = [] →
        DefaultsClosed options (extract source options.extraction) enums) := by
  obtain ⟨registry, hregister, houtcomes⟩ := ofSource_eq_ok_iff.1 h
  refine ⟨registry.entries, isWrittenByTables_of_ofOutcomes houtcomes,
    referencesClosed_of_registerAll hregister, ?_⟩
  rw [enumConflicts_of_ofOutcomes houtcomes]
  intro hconflicts table htable field hfield value enumeration hdefault htype
  constructor
  · exact mem_fields_modelOf.2 (Or.inl ⟨field, hfield, rfl⟩)
  · exact defaultDeclared_of_registerAll hregister hconflicts htable hfield hdefault htype

/-- The declaration of an enumeration column with a default that is no identifier. -/
def teamRole : FieldDeclaration :=
  ⟨"role", "mysqlEnum(\"role\", [\"admin\", \"team lead\"]).default(\"team lead\")", 1⟩

/-- A source with one table, which has the one column `teamRole`. -/
def teamSource : String :=
  "const users = mysqlTable(\"users\", \x7b role: " ++ teamRole.expression ++ " \x7d);"

/-- What is extracted from it. -/
def teamExtraction : Extraction where
  dialect := .mysql
  tables := [⟨"users", "users", 1, [teamRole], none, []⟩]
  skipped := []

theorem enum_references_closed_team :
    ∃ conversion enums, ofSource {} teamSource = .ok conversion ∧
      IsWrittenByTables {} teamExtraction enums conversion ∧
      ReferencesClosed enums ((keptTables {} teamExtraction).map (modelOf {} .mysql)) ∧
      DefaultDeclared enums "Role" (Mapping.mappedField .mysql .uuid teamRole) := by
  have hextract : extract teamSource (ConversionOptions.extraction {}) = teamExtraction := by
    decide +kernel
  have hrun : (ofExtraction {} teamExtraction).toOption.map (·.report.enumConflicts) = some [] := by
    decide +kernel
  have hparse : (Column.parse teamRole.expression).toOption.map
      (fun expr => (expr.default?.bind Column.Value.string?, Mapping.declaredEnum? expr)) =
        some (some "team lead", some ("role", ["admin", "team lead"])) := by
    decide +kernel
  have htype : (Mapping.mappedField .mysql .uuid teamRole).fieldType = .enumeration "Role" := by
    decide +kernel
  obtain ⟨conversion, hconversion, hconflicts⟩ := Option.map_eq_some_iff.1 hrun
  obtain ⟨expr, hexpr, hread⟩ := Option.map_eq_some_iff.1 hparse
  obtain ⟨hstring, hdeclared⟩ := Prod.mk.inj hread
  obtain ⟨given, hgiven, htext⟩ := Option.bind_eq_some_iff.1 hstring
  obtain rfl := Column.Value.string?_eq_some_iff.1 htext
  have hdefault : HasOwnDefault teamRole "team lead" :=
    ⟨expr, toOption_eq_some_iff.1 hexpr, hgiven, _, hdeclared, by simp⟩
  have hsource : ofSource {} teamSource = .ok conversion := by
    rw [ofSource, hextract]
    exact toOption_eq_some_iff.1 hconversion
  obtain ⟨enums, hwritten, hclosed, hdefaults⟩ := enum_references_closed hsource
  rw [hextract] at hwritten hclosed hdefaults
  have hmember := hdefaults hconflicts ⟨"users", "users", 1, [teamRole], none, []⟩
    (by decide +kernel) teamRole List.mem_cons_self "team lead" "Role" hdefault htype
  exact ⟨conversion, enums, hsource, hwritten, hclosed, hmember.2⟩

end TableModels.Conversion
