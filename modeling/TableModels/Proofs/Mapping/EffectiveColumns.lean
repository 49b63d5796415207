import TableModels.Model.AuditFields
import TableModels.Proofs.Mapping.FieldAttributes

/-!
# Columns of mapped fields

A declaration that gives its column a name of its own keeps it: the field that it is mapped to names
the same column. The fields that injection adds carry no such name, and whether one is added depends
on the names of the fields only. So an added field can share its column with a declared field that
goes by another name, and this is the only way in which injection makes columns clash.
-/

namespace TableModels

/-- The column that an attribute names. -/
def Attribute.column? : Attribute → Option String
  | .map column => some column
  | _ => none

/-- The column that a field stands for, which has the name of the field unless an attribute names
it. -/
def MappedField.column (field : MappedField) : String :=
  (field.attributes.findSome? Attribute.column?).getD field.name

/-- The column that a declaration stands for, which has the name of the declaration unless the first
argument of its type call names it. -/
def FieldDeclaration.column (declaration : FieldDeclaration) : String :=
  match Column.parse declaration.expression with
  | .error _ => declaration.name
  | .ok expr => expr.columnName?.getD declaration.name

namespace Mapping

/-! ### Declared columns -/

theorem findSome?_column?_eq_none {attributes : List Attribute}
    (h : ∀ column, .map column ∉ attributes) : attributes.findSome? Attribute.column? = none := by
  apply List.findSome?_eq_none_iff.mpr
  intro attr hattr
  cases attr with
  | map column => exact absurd hattr (h column)
  | _ => rfl

/-- The attribute is there when it is needed to tell the column. -/
theorem getD_findSome?_columnMap? (name : String) (expr : Column.Expression) :
    ((columnMap? name expr).toList.findSome? Attribute.column?).getD name =
      expr.columnName?.getD name := by
  unfold columnMap?
  cases expr.columnName? with
  | none => rfl
  | some column =>
      by_cases hname : column = name
      · simp [hname]
      · simp [hname, Attribute.column?]

/-- A field stands for the column of its declaration. -/
theorem column_mappedField (dialect : Dialect) (policy : IdentityPolicy)
    (declaration : FieldDeclaration) :
    (mappedField dialect policy declaration).column = declaration.column := by
  cases hparse : Column.parse declaration.expression with
  | error error =>
      rw [mappedField, FieldDeclaration.column, hparse]
      rfl
  | ok expr =>
      have hcore := isSoundCore_coreFieldOf dialect policy declaration.name declaration.expression
        expr
      rw [MappedField.column, attributes_mappedField hparse, name_mappedField,
        FieldDeclaration.column, hparse, List.findSome?_append,
        findSome?_column?_eq_none hcore.noMap, Option.none_or]
      exact getD_findSome?_columnMap? declaration.name expr

/-! ### Injected columns -/

/-- An audit field stands for the column of its own name. -/
theorem column_of_mem_auditFields {audit : MappedField} (h : audit ∈ auditFields) :
    audit.column = audit.name := by
  revert audit
  decide

/-- Injection adds the columns of the audit fields whose names no field has. -/
theorem map_column_injectAuditFields (fields : List MappedField) :
    (injectAuditFields fields).map (·.column) =
      fields.map (·.column) ++
        (auditFields.map (·.name)).filter fun name => name ∉ fields.map (·.name) := by
  rw [injectAuditFields_eq, List.map_append, List.filter_map]
  congr 1
  apply List.map_congr_left
  intro audit haudit
  exact column_of_mem_auditFields (List.mem_of_mem_filter haudit)

/-- Injection keeps columns distinct when each declared column of the name of an audit field
belongs to fields one of which has this name. -/
theorem nodup_map_column_injectAuditFields_iff {fields : List MappedField}
    (h : (fields.map (·.column)).Nodup) :
    ((injectAuditFields fields).map (·.column)).Nodup ↔
      ∀ name ∈ auditFields.map (·.name), name ∈ fields.map (·.column) →
        name ∈ fields.map (·.name) := by
  have haudit : (auditFields.map (·.name)).Nodup := by decide
  rw [map_column_injectAuditFields, List.nodup_append]
  constructor
  · rintro ⟨-, -, hdisjoint⟩ name hname hcolumn
    by_contra habsent
    have hadded : name ∈ (auditFields.map (·.name)).filter fun name =>
        name ∉ fields.map (·.name) :=
      List.mem_filter.mpr ⟨hname, decide_eq_true habsent⟩
    exact hdisjoint name hcolumn name hadded rfl
  · intro hnames
    refine ⟨h, haudit.filter _, ?_⟩
    rintro name hcolumn other hother rfl
    obtain ⟨hname, habsent⟩ := List.mem_filter.mp hother
    exact of_decide_eq_true habsent (hnames name hname hcolumn)

/-- Mapped fields stand for the declared columns, injection adds the columns of the audit fields
whose names are free, and distinct columns stay distinct exactly when no declaration of another name
stands for one of the added columns. -/
theorem injected_columns_of_mapFields {dialect : Dialect} {policy : IdentityPolicy}
    {registry after : EnumRegistry} {declarations : List FieldDeclaration}
    {fields : List MappedField}
    (hmapped : mapFields dialect policy registry declarations = .ok (fields, after))
    (hcolumns : (declarations.map (·.column)).Nodup) :
    (injectAuditFields fields).map (·.column) =
        declarations.map (·.column) ++
          (auditFields.map (·.name)).filter (fun name => name ∉ declarations.map (·.name)) ∧
      (((injectAuditFields fields).map (·.column)).Nodup ↔
        ∀ name ∈ auditFields.map (·.name), name ∈ declarations.map (·.column) →
          name ∈ declarations.map (·.name)) := by
  obtain rfl := eq_map_mappedField_of_mapFields hmapped
  have hnames : (declarations.map (mappedField dialect policy)).map (·.name) =
      declarations.map (·.name) := by
    rw [List.map_map]
    exact List.map_congr_left fun declaration _ => name_mappedField dialect policy declaration
  have hcolumn : (declarations.map (mappedField dialect policy)).map (·.column) =
      declarations.map (·.column) := by
    rw [List.map_map]
    exact List.map_congr_left fun declaration _ => column_mappedField dialect policy declaration
  rw [← hcolumn] at hcolumns
  constructor
  · rw [map_column_injectAuditFields, hcolumn, hnames]
  · rw [nodup_map_column_injectAuditFields_iff hcolumns, hcolumn, hnames]

theorem injected_columns_of_mapFields_renamed :
    let declarations : List FieldDeclaration :=
      [⟨"id", "int('user_id').primaryKey()", 1⟩, ⟨"createdAt", "timestamp('created_at')", 2⟩]
    ∃ fields, mapFields .mysql .uuid (EnumRegistry.empty .error) declarations =
        .ok (fields, EnumRegistry.empty .error) ∧
      (injectAuditFields fields).map (·.column) =
        ["user_id", "created_at", "updatedAt", "createdBy", "updatedBy"] ∧
      ((injectAuditFields fields).map (·.column)).Nodup := by
  intro declarations
  let fields : List MappedField :=
    [⟨"id", .string, [.id, .defaultUuid, .map "user_id"], false⟩,
      ⟨"createdAt", .dateTime, [.map "created_at"], true⟩]
  have hmapped : mapFields .mysql .uuid (EnumRegistry.empty .error) declarations =
      .ok (fields, EnumRegistry.empty .error) :=
    toOption_eq_some_iff.mp (by decide +kernel)
  have hcolumns : declarations.map (·.column) = ["user_id", "created_at"] := by decide +kernel
  obtain ⟨hall, hdistinct⟩ :=
    injected_columns_of_mapFields hmapped (by rw [hcolumns]; decide)
  refine ⟨fields, hmapped, ?_, hdistinct.mpr ?_⟩
  · rw [hall, hcolumns]
    decide
  · rw [hcolumns]
    decide

/-- A field of another name that stands for the column of an audit field shares this column with the
audit field, which is added beside it. -/
theorem injected_createdAt_repeats_column :
    let declarations : List FieldDeclaration := [⟨"created", "timestamp('createdAt')", 1⟩]
    let fields : List MappedField := [⟨"created", .dateTime, [.map "createdAt"], true⟩]
    (declarations.map (·.name)).Nodup ∧ (declarations.map (·.column)).Nodup ∧
      mapFields .mysql .uuid (EnumRegistry.empty .error) declarations =
        .ok (fields, EnumRegistry.empty .error) ∧
      (injectAuditFields fields).map (·.column) =
        ["createdAt", "createdAt", "updatedAt", "createdBy", "updatedBy"] ∧
      ¬ ((injectAuditFields fields).map (·.column)).Nodup := by
  intro declarations fields
  refine ⟨by decide, by decide +kernel, ?_, by decide, by decide⟩
  exact toOption_eq_some_iff.mp (by decide +kernel)

end Mapping

end TableModels
