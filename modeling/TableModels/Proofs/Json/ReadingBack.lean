import TableModels.Json.ReportRecord
import Mathlib.Data.List.Nodup

/-!
# Records are read back

What is written as a JSON value is read back as what it was: the types and attributes of fields,
fields, indexes and models, tables of the source document, and reports. A number is read back when
it is one that its type can hold.

## Implementation notes

Every record lists the names of its fields once when it is written and once when it is read, and
each of these names occurs once. The lemma on records takes the two lists to be one, so for each
kind of record it only remains to read the fields one by one.
-/

namespace TableModels

namespace Json

/-! ### Parts of records -/

/-- A list that is written item by item is read back item by item. -/
theorem arrayOf?_map {α : Type} {write : α → Json} {read : Json → Option α} {items : List α}
    (h : ∀ item ∈ items, read (write item) = some item) :
    arrayOf? read (array (items.map write)) = some items := by
  rw [arrayOf?]
  induction items with
  | nil => rfl
  | cons first rest ih =>
      obtain ⟨hfirst, hrest⟩ := List.forall_mem_cons.mp h
      rw [List.map_cons, List.mapM_cons, hfirst, ih hrest]
      rfl

@[simp] theorem string?_string (value : String) : string? (string value) = some value := rfl

@[simp] theorem bool?_bool (value : Bool) : bool? (bool value) = some value := rfl

@[simp] theorem strings?_ofStrings (values : List String) :
    strings? (ofStrings values) = some values :=
  arrayOf?_map fun _ _ => rfl

@[simp] theorem nullableField?_ofString? (value : Option String) :
    nullableField? (some (ofString? value)) = some value := by
  cases value <;> rfl

theorem natBelow?_ofNat {bound n : Nat} (h : n < bound) : natBelow? bound (ofNat n) = some n :=
  if_pos h

theorem count?_ofNat {n : Nat} (h : n < UInt64.size) : count? (ofNat n) = some n :=
  natBelow?_ofNat h

@[simp] theorem uint32?_ofNat (n : UInt32) : uint32? (ofNat n.toNat) = some n := by
  rw [uint32?, natBelow?_ofNat n.toNat_lt, Option.map_some, UInt32.ofNat_toNat]

/-- The members of an object are found under their names, if no name occurs twice. -/
theorem record?_zip {names : List String} (hnames : names.Nodup) (values : List Json)
    (hlength : values.length = names.length) :
    (object (names.zip values)).record? names = some (values.map some) := by
  rw [record?]
  congr 1
  induction names generalizing values with
  | nil =>
      cases values with
      | nil => rfl
      | cons value rest => cases hlength
  | cons name others ih =>
      cases values with
      | nil => cases hlength
      | cons value rest =>
          obtain ⟨hname, hothers⟩ := List.nodup_cons.mp hnames
          rw [List.zip_cons_cons, List.map_cons, List.map_cons, List.lookup_cons_self,
            ← ih hothers rest (Nat.succ.inj hlength)]
          congr 1
          apply List.map_congr_left
          intro other hother
          have hne : (other == name) = false := by
            rw [beq_eq_false_iff_ne]
            rintro rfl
            exact hname hother
          rw [List.lookup_cons, hne]

end Json

/-! ### Fields, indexes and models -/

@[simp] theorem TargetType.ofJson?_toJson (type : TargetType) :
    ofJson? type.toJson = some type := by
  cases type <;> rfl

@[simp] theorem Attribute.ofJson?_toJson (written : Attribute) :
    ofJson? written.toJson = some written := by
  cases written with
  | varChar length => exact congrArg (Option.map varChar) (Json.uint32?_ofNat length)
  | char length => exact congrArg (Option.map char) (Json.uint32?_ofNat length)
  | decimalPrecision precision scale =>
      change precisionAndScale? (.array [.ofNat precision.toNat, .ofNat scale.toNat]) = _
      rw [precisionAndScale?, Json.uint32?_ofNat, Json.uint32?_ofNat]
  | _ => rfl

@[simp] theorem MappedField.ofJson?_toJson (field : MappedField) :
    ofJson? field.toJson = some field := by
  have hfields : field.toJson.record? ["name", "field_type", "attributes", "optional"] =
      some [some (.string field.name), some field.fieldType.toJson,
        some (.array (field.attributes.map Attribute.toJson)), some (.bool field.isOptional)] :=
    Json.record?_zip (by decide) [_, _, _, _] rfl
  have hattributes := Json.arrayOf?_map fun written (_ : written ∈ field.attributes) =>
    Attribute.ofJson?_toJson written
  rw [ofJson?, hfields]
  simp [hattributes]

@[simp] theorem IndexKind.choice?_tag (kind : IndexKind) :
    Json.choice? ofTag? (.string kind.tag) = some kind := by
  cases kind <;> rfl

@[simp] theorem IndexDeclaration.ofJson?_toJson (index : IndexDeclaration) :
    ofJson? index.toJson = some index := by
  have hfields : index.toJson.record? ["kind", "name", "fields"] =
      some [some (.string index.kind.tag), some (.ofString? index.name),
        some (.ofStrings index.fields)] :=
    Json.record?_zip (by decide) [_, _, _] rfl
  rw [ofJson?, hfields]
  simp

@[simp] theorem ModelDeclaration.ofJson?_toJson (model : ModelDeclaration) :
    ofJson? model.toJson = some model := by
  have hfields : model.toJson.record?
      ["name", "source_ident", "table_name", "fields", "indexes"] =
      some [some (.string model.name), some (.string model.sourceIdent),
        some (.string model.tableName), some (.array (model.fields.map MappedField.toJson)),
        some (.array (model.indexes.map IndexDeclaration.toJson))] :=
    Json.record?_zip (by decide) [_, _, _, _, _] rfl
  have hmapped := Json.arrayOf?_map fun field (_ : field ∈ model.fields) =>
    MappedField.ofJson?_toJson field
  have hindexes := Json.arrayOf?_map fun index (_ : index ∈ model.indexes) =>
    IndexDeclaration.ofJson?_toJson index
  rw [ofJson?, hfields]
  simp [hmapped, hindexes]

/-! ### Declarations of the source document -/

theorem FieldDeclaration.ofJson?_toJson {field : FieldDeclaration}
    (hline : field.line < UInt64.size) : ofJson? field.toJson = some field := by
  have hfields : field.toJson.record? ["name", "expression", "line"] =
      some [some (.string field.name), some (.string field.expression),
        some (.ofNat field.line)] :=
    Json.record?_zip (by decide) [_, _, _] rfl
  rw [ofJson?, hfields]
  simp [Json.count?_ofNat hline]

/-- The lines of a table and of its fields are counted with 64 bits. -/
structure TableDeclaration.HasWordCounts (table : TableDeclaration) : Prop where
  line : table.line < UInt64.size
  fields : ∀ field ∈ table.fields, field.line < UInt64.size

theorem TableDeclaration.ofJson?_toJson {table : TableDeclaration} (h : table.HasWordCounts) :
    ofJson? table.toJson = some table := by
  have hfields : table.toJson.record?
      ["ident", "table_name", "line", "fields", "index_block", "index_descriptors"] =
      some [some (.string table.ident), some (.string table.tableName),
        some (.ofNat table.line), some (.array (table.fields.map FieldDeclaration.toJson)),
        some (.ofString? table.indexBlock), some (.ofStrings table.indexDescriptors)] :=
    Json.record?_zip (by decide) [_, _, _, _, _, _] rfl
  have hdeclared := Json.arrayOf?_map fun field (hfield : field ∈ table.fields) =>
    FieldDeclaration.ofJson?_toJson (h.fields field hfield)
  rw [ofJson?, hfields]
  simp [Json.count?_ofNat h.line, hdeclared]

theorem SkippedLine.ofJson?_toJson {skipped : SkippedLine} (hline : skipped.line < UInt64.size) :
    ofJson? skipped.toJson = some skipped := by
  have hfields : skipped.toJson.record? ["table", "line", "text"] =
      some [some (.string skipped.table), some (.ofNat skipped.line),
        some (.string skipped.text)] :=
    Json.record?_zip (by decide) [_, _, _] rfl
  rw [ofJson?, hfields]
  simp [Json.count?_ofNat hline]

/-! ### Reports -/

@[simp] theorem EnumConflict.ofJson?_toJson (conflict : EnumConflict) :
    ofJson? conflict.toJson = some conflict := by
  have hfields : conflict.toJson.record? ["name", "existing", "incoming"] =
      some [some (.string conflict.name), some (.ofStrings conflict.existing),
        some (.ofStrings conflict.incoming)] :=
    Json.record?_zip (by decide) [_, _, _] rfl
  rw [ofJson?, hfields]
  simp

theorem ModelSummary.ofJson?_toJson {summary : ModelSummary}
    (hcount : summary.fields < UInt64.size) : ofJson? summary.toJson = some summary := by
  have hfields : summary.toJson.record? ["model", "table", "fields"] =
      some [some (.string summary.model), some (.string summary.table),
        some (.ofNat summary.fields)] :=
    Json.record?_zip (by decide) [_, _, _] rfl
  rw [ofJson?, hfields]
  simp [Json.count?_ofNat hcount]

@[simp] theorem UnmappedField.ofJson?_toJson (field : UnmappedField) :
    ofJson? field.toJson = some field := by
  have hfields : field.toJson.record? ["model", "field", "expression"] =
      some [some (.string field.model), some (.string field.field),
        some (.string field.expression)] :=
    Json.record?_zip (by decide) [_, _, _] rfl
  rw [ofJson?, hfields]
  simp

@[simp] theorem UnparsedIndex.ofJson?_toJson (index : UnparsedIndex) :
    ofJson? index.toJson = some index := by
  have hfields : index.toJson.record? ["model", "descriptor"] =
      some [some (.string index.model), some (.string index.descriptor)] :=
    Json.record?_zip (by decide) [_, _] rfl
  rw [ofJson?, hfields]
  simp

/-- The fields, lines and blocks of a report are counted with 64 bits. -/
structure ConversionReport.HasWordCounts (report : ConversionReport) : Prop where
  models : ∀ model ∈ report.models, model.fields < UInt64.size
  skippedLines : ∀ skipped ∈ report.skippedLines, skipped.line < UInt64.size
  repairedBlocks : report.repairedBlocks < UInt64.size

theorem ConversionReport.ofJson?_toJson {report : ConversionReport} (h : report.HasWordCounts) :
    ofJson? report.toJson = some report := by
  have hfields : report.toJson.record? fieldNames =
      some [some (.string report.dialect), some (.array (report.models.map ModelSummary.toJson)),
        some (.ofStrings report.enums), some (.ofStrings report.excludedTables),
        some (.array (report.skippedLines.map SkippedLine.toJson)),
        some (.array (report.unmappedFields.map UnmappedField.toJson)),
        some (.array (report.unparsedIndexes.map UnparsedIndex.toJson)),
        some (.array (report.enumConflicts.map EnumConflict.toJson)),
        some (.ofNat report.repairedBlocks), some (.string report.documentFingerprint)] :=
    Json.record?_zip (by decide) [_, _, _, _, _, _, _, _, _, _] rfl
  have hmodels := Json.arrayOf?_map fun model (hmodel : model ∈ report.models) =>
    ModelSummary.ofJson?_toJson (h.models model hmodel)
  have hskipped := Json.arrayOf?_map fun skipped (hline : skipped ∈ report.skippedLines) =>
    SkippedLine.ofJson?_toJson (h.skippedLines skipped hline)
  have hunmapped := Json.arrayOf?_map fun field (_ : field ∈ report.unmappedFields) =>
    UnmappedField.ofJson?_toJson field
  have hunparsed := Json.arrayOf?_map fun index (_ : index ∈ report.unparsedIndexes) =>
    UnparsedIndex.ofJson?_toJson index
  have hconflicts := Json.arrayOf?_map fun conflict (_ : conflict ∈ report.enumConflicts) =>
    EnumConflict.ofJson?_toJson conflict
  rw [ofJson?, hfields]
  simp [Json.count?_ofNat h.repairedBlocks, hmodels, hskipped, hunmapped, hunparsed, hconflicts]

/-! ### All records -/

/-- Types, attributes, fields, indexes, models, tables, conflicts and reports are read back as they
were, whatever they hold, as long as 64 bits are enough for their counts. -/
theorem records_read_back :
    (∀ type : TargetType, TargetType.ofJson? type.toJson = some type) ∧
      (∀ written : Attribute, Attribute.ofJson? written.toJson = some written) ∧
      (∀ field : MappedField, MappedField.ofJson? field.toJson = some field) ∧
      (∀ index : IndexDeclaration, IndexDeclaration.ofJson? index.toJson = some index) ∧
      (∀ model : ModelDeclaration, ModelDeclaration.ofJson? model.toJson = some model) ∧
      (∀ table : TableDeclaration, table.HasWordCounts →
        TableDeclaration.ofJson? table.toJson = some table) ∧
      (∀ conflict : EnumConflict, EnumConflict.ofJson? conflict.toJson = some conflict) ∧
      ∀ report : ConversionReport, report.HasWordCounts →
        ConversionReport.ofJson? report.toJson = some report :=
  ⟨TargetType.ofJson?_toJson, Attribute.ofJson?_toJson, MappedField.ofJson?_toJson,
    IndexDeclaration.ofJson?_toJson, ModelDeclaration.ofJson?_toJson,
    fun _ => TableDeclaration.ofJson?_toJson, EnumConflict.ofJson?_toJson,
    fun _ => ConversionReport.ofJson?_toJson⟩

/-- A table with two fields and an index section. -/
def countedTable : TableDeclaration where
  ident := "users"
  tableName := "users"
  line := 1
  fields := [⟨"id", "int().primaryKey()", 2⟩, ⟨"email", "varchar({ length: 255 })", 3⟩]
  indexBlock := some "(t) => [index(\"by_email\").on(t.email)]"
  indexDescriptors := ["index(\"by_email\").on(t.email)"]

/-- A report in which every part has an entry. -/
def countedReport : ConversionReport where
  dialect := "mysql"
  models := [⟨"Users", "users", 2⟩]
  enums := ["Role"]
  excludedTables := ["logs"]
  skippedLines := [⟨"users", 4, "...shared"⟩]
  unmappedFields := [⟨"Users", "shape", "polygon()"⟩]
  unparsedIndexes := [⟨"Users", "check(t.age)"⟩]
  enumConflicts := [⟨"Role", ["a"], ["a", "b"]⟩]
  repairedBlocks := 1
  documentFingerprint := "e3b0c442"

theorem records_read_back_counted :
    TableDeclaration.ofJson? countedTable.toJson = some countedTable ∧
      ConversionReport.ofJson? countedReport.toJson = some countedReport := by
  obtain ⟨-, -, -, -, -, htables, -, hreports⟩ := records_read_back
  exact ⟨htables countedTable ⟨by decide, by decide⟩,
    hreports countedReport ⟨by decide, by decide, by decide⟩⟩

end TableModels
