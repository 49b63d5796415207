import TableModels.Proofs.Conversion.Accounting
import TableModels.Proofs.Conversion.FlatLines
import TableModels.Proofs.Model.FieldInjection

/-!
# Conversions with and without audit fields

Audit fields are added to a model behind its own fields, and only where their names are free. So a
set of models that is consistent without them stays consistent: no name is repeated, and the columns
of the indexes are still there. Nothing else in a conversion looks at them, because an audit field
asks for no enumeration and is never unmapped.
-/

namespace TableModels

/-- The second model has the name, the table and the indexes of the first, and its fields are those
of the first followed by the audit fields whose names are absent there. -/
structure ModelDeclaration.AddsAuditFields (plain audited : ModelDeclaration) : Prop where
  name : audited.name = plain.name
  sourceIdent : audited.sourceIdent = plain.sourceIdent
  tableName : audited.tableName = plain.tableName
  indexes : audited.indexes = plain.indexes
  fields : audited.fields =
    plain.fields ++ auditFields.filter fun audit => audit.name ∉ plain.fieldNames

namespace ModelDeclaration

variable {plain audited : ModelDeclaration} {models others : List ModelDeclaration}

theorem AddsAuditFields.fieldNames_eq (h : plain.AddsAuditFields audited) :
    audited.fieldNames = namesOf (injectAuditFields plain.fields) := by
  rw [injectAuditFields_eq]
  exact congrArg namesOf h.fields

/-- The names of the audit fields are distinct, and only absent names are added. -/
theorem AddsAuditFields.nodup_fieldNames (h : plain.AddsAuditFields audited)
    (hplain : plain.fieldNames.Nodup) : audited.fieldNames.Nodup := by
  rw [h.fieldNames_eq]
  exact nodup_namesOf_injectAuditFields.mpr hplain

theorem AddsAuditFields.mem_fieldNames (h : plain.AddsAuditFields audited) {name : String}
    (hname : name ∈ plain.fieldNames) : name ∈ audited.fieldNames := by
  rw [h.fieldNames_eq, injectAuditFields_eq_addAllMissing]
  exact mem_namesOf_addAllMissing.mpr (Or.inl hname)

theorem AddsAuditFields.exists_plain (h : List.Forall₂ AddsAuditFields models others)
    (haudited : audited ∈ others) : ∃ plain ∈ models, plain.AddsAuditFields audited := by
  induction h with
  | nil => cases haudited
  | cons hfirst _ ih =>
      rcases List.mem_cons.mp haudited with rfl | hrest
      · exact ⟨_, List.mem_cons_self, hfirst⟩
      · obtain ⟨plain, hplain, hadds⟩ := ih hrest
        exact ⟨plain, List.mem_cons_of_mem _ hplain, hadds⟩

/-- A name that a model keeps is given to the same models. -/
theorem AddsAuditFields.map_eq {key : ModelDeclaration → String}
    (hkey : ∀ {plain audited : ModelDeclaration}, plain.AddsAuditFields audited →
      key audited = key plain)
    (h : List.Forall₂ AddsAuditFields models others) : others.map key = models.map key := by
  induction h with
  | nil => rfl
  | cons hfirst _ ih => rw [List.map_cons, List.map_cons, hkey hfirst, ih]

/-- Consistent models stay consistent when audit fields are added to all of them. -/
theorem IsConsistentAfter.of_addsAuditFields (h : IsConsistentAfter [] models)
    (hadds : List.Forall₂ AddsAuditFields models others) : IsConsistentAfter [] others := by
  constructor
  case names =>
    refine ⟨?_, fun _ _ => List.not_mem_nil⟩
    rw [AddsAuditFields.map_eq AddsAuditFields.name hadds]
    exact h.names.1
  case tables =>
    refine ⟨?_, fun _ _ => List.not_mem_nil⟩
    rw [AddsAuditFields.map_eq AddsAuditFields.tableName hadds]
    exact h.tables.1
  case fields =>
    intro audited haudited
    obtain ⟨plain, hplain, hadd⟩ := AddsAuditFields.exists_plain hadds haudited
    exact hadd.nodup_fieldNames (h.fields plain hplain)
  case columns =>
    intro audited haudited index hindex column hcolumn
    obtain ⟨plain, hplain, hadd⟩ := AddsAuditFields.exists_plain hadds haudited
    rw [hadd.indexes] at hindex
    exact hadd.mem_fieldNames (h.columns plain hplain index hindex column hcolumn)

end ModelDeclaration

namespace Conversion

/-- Two conversions of one extraction are written from the same enumerations, the first from models
without audit fields and the second from the same models with them. Their reports differ only in
what they say of the models and of the document. -/
structure AuditFieldsAdded (options : ConversionOptions) (extraction : Extraction)
    (plain audited : Conversion) : Prop where
  written : ∃ enums,
    IsWrittenFrom { options with auditFields := false } plain enums
        (modelsOf { options with auditFields := false } extraction) ∧
      IsWrittenFrom { options with auditFields := true } audited enums
        (modelsOf { options with auditFields := true } extraction)
  models : List.Forall₂ ModelDeclaration.AddsAuditFields
    (modelsOf { options with auditFields := false } extraction)
    (modelsOf { options with auditFields := true } extraction)
  report : audited.report = { plain.report with
    models := audited.report.models
    repairedBlocks := audited.report.repairedBlocks
    documentFingerprint := audited.report.documentFingerprint }

variable {options : ConversionOptions} {extraction : Extraction} {registry : EnumRegistry}

theorem addsAuditFields_modelOf (options : ConversionOptions) (dialect : Dialect)
    (table : TableDeclaration) :
    (modelOf { options with auditFields := false } dialect table).AddsAuditFields
      (modelOf { options with auditFields := true } dialect table) where
  name := rfl
  sourceIdent := rfl
  tableName := rfl
  indexes := rfl
  fields := injectAuditFields_eq _

theorem addsAuditFields_modelsOf (options : ConversionOptions) (extraction : Extraction) :
    List.Forall₂ ModelDeclaration.AddsAuditFields
      (modelsOf { options with auditFields := false } extraction)
      (modelsOf { options with auditFields := true } extraction) := by
  apply List.forall₂_map_left_iff.mpr
  apply List.forall₂_map_right_iff.mpr
  apply List.forall₂_same.mpr
  exact fun table _ => addsAuditFields_modelOf options extraction.dialect table

/-- With audit fields the models are consistent as they were without. -/
theorem exists_ofOutcomes_audited {plain : Conversion}
    (h : ofOutcomes { options with auditFields := false } extraction
      (outcomes { options with auditFields := false } extraction) registry = .ok plain) :
    ∃ audited, ofOutcomes { options with auditFields := true } extraction
      (outcomes { options with auditFields := true } extraction) registry = .ok audited := by
  have hvalid := exists_ofOutcomes_iff.mp ⟨plain, h⟩
  apply exists_ofOutcomes_iff.mpr
  apply ModelDeclaration.validateAfter_eq_ok_iff.mpr
  exact (ModelDeclaration.validateAfter_eq_ok_iff.mp hvalid).of_addsAuditFields
    (addsAuditFields_modelsOf options extraction)

theorem auditFieldsAdded_of_ofOutcomes {plain audited : Conversion}
    (hplain : ofOutcomes { options with auditFields := false } extraction
      (outcomes { options with auditFields := false } extraction) registry = .ok plain)
    (haudited : ofOutcomes { options with auditFields := true } extraction
      (outcomes { options with auditFields := true } extraction) registry = .ok audited) :
    AuditFieldsAdded options extraction plain audited := by
  constructor
  case written => exact ⟨_, isWrittenFrom_modelsOf hplain, isWrittenFrom_modelsOf haudited⟩
  case models => exact addsAuditFields_modelsOf options extraction
  case report =>
    rw [report_of_ofOutcomes haudited, report_of_ofOutcomes hplain]
    simp only [unmappedFields_modelOf]
    rfl

/-- Asking for audit fields adds them to the models of a conversion and changes nothing else. -/
theorem audit_fields_only_added {source : String} {plain : Conversion}
    (h : ofSource { options with auditFields := false } source = .ok plain) :
    ∃ audited, ofSource { options with auditFields := true } source = .ok audited ∧
      AuditFieldsAdded options (extract source options.extraction) plain audited := by
  obtain ⟨registry, hregister, hplain⟩ := ofSource_eq_ok_iff.mp h
  obtain ⟨audited, haudited⟩ := exists_ofOutcomes_audited hplain
  refine ⟨audited, ofSource_eq_ok_iff.mpr ⟨registry, hregister, haudited⟩, ?_⟩
  exact auditFieldsAdded_of_ofOutcomes hplain haudited

/-- A source with one table, which declares one of the audit fields itself and has an index. -/
def auditedSource : String :=
  "const posts = mysqlTable(\"posts\", \x7b id: int().primaryKey(), updatedAt: timestamp() \x7d, "
    ++ "(t) => [index(\"newest\").on(t.updatedAt)]);"

/-- What is extracted from it. -/
def auditedExtraction : Extraction where
  dialect := .mysql
  tables := [
    { ident := "posts"
      tableName := "posts"
      line := 1
      fields := [⟨"id", "int().primaryKey()", 1⟩, ⟨"updatedAt", "timestamp()", 1⟩]
      indexBlock := some "(t) => [index(\"newest\").on(t.updatedAt)]"
      indexDescriptors := ["index(\"newest\").on(t.updatedAt)"] }]
  skipped := []

theorem audit_fields_only_added_posts :
    ∃ plain audited, ofSource { auditFields := false } auditedSource = .ok plain ∧
      ofSource {} auditedSource = .ok audited ∧
      audited.report.unparsedIndexes = plain.report.unparsedIndexes ∧
      (modelsOf { auditFields := false } auditedExtraction).map (·.fieldNames) =
        [["id", "updatedAt"]] ∧
      (modelsOf {} auditedExtraction).map (·.fieldNames) =
        [["id", "updatedAt", "createdAt", "createdBy", "updatedBy"]] := by
  have hextract : extract auditedSource (ConversionOptions.extraction {}) = auditedExtraction := by
    decide +kernel
  obtain ⟨plain, hconversion⟩ :
      ∃ plain, ofExtraction { auditFields := false } auditedExtraction = .ok plain :=
    exists_eq_ok_of_isOk (by decide +kernel)
  have hplain : ofSource { auditFields := false } auditedSource = .ok plain := by
    rw [ofSource]
    exact hextract ▸ hconversion
  obtain ⟨audited, haudited, hadded⟩ := @audit_fields_only_added {} _ _ hplain
  rw [hextract] at hadded
  refine ⟨plain, audited, hplain, haudited, ?_, by decide +kernel, by decide +kernel⟩
  rw [hadded.report]

end Conversion

end TableModels
