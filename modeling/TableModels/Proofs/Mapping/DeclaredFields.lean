import TableModels.Proofs.Mapping.PrimaryKeys

/-!
# Fields and their declarations

A field has the name of its declaration. The type of a field that no rule maps has its expression,
and the type of any other field has a name of its own unless it is an enumeration.
-/

namespace TableModels.Mapping

/-! ### Names -/

@[simp] theorem name_withAttribute? (field : MappedField) (added : Option Attribute) :
    (field.withAttribute? added).name = field.name := by
  cases added <;> rfl

@[simp] theorem name_asOptional (field : MappedField) : field.asOptional.name = field.name := by
  unfold MappedField.asOptional
  split <;> rfl

theorem name_identityField (policy : IdentityPolicy) (name : String) (kind : Option ColumnKind)
    (autoincrement : Bool) : (identityField policy name kind autoincrement).name = name := by
  obtain ⟨type, attributes, -, hfield⟩ := exists_keyColumn policy name kind autoincrement
  rw [hfield]

theorem name_coreFieldOf (dialect : Dialect) (policy : IdentityPolicy) (name raw : String)
    (expr : Column.Expression) : (coreFieldOf dialect policy name raw expr).name = name := by
  apply coreFieldOf_cases (motive := fun field => field.name = name)
  case key => exact fun _ => name_identityField _ _ _ _
  case unmapped => exact fun _ => rfl
  case enumeration => exact fun _ _ _ _ => rfl
  case scalar => exact fun _ _ _ _ _ => rfl

/-- A field keeps the name of its declaration. -/
theorem name_mappedField (dialect : Dialect) (policy : IdentityPolicy) (field : FieldDeclaration) :
    (mappedField dialect policy field).name = field.name := by
  unfold mappedField
  split
  · rfl
  · dsimp only
    split <;> simp [name_coreFieldOf]

/-! ### Unmapped fields -/

theorem raw?_identityField (policy : IdentityPolicy) (name : String) (kind : Option ColumnKind)
    (autoincrement : Bool) :
    (identityField policy name kind autoincrement).fieldType.raw? = none := by
  obtain ⟨type, attributes, hcolumn, hfield⟩ := exists_keyColumn policy name kind autoincrement
  rw [hfield]
  cases hcolumn <;> rfl

theorem raw?_of_scalarColumn? {kind : ColumnKind} {expr : Column.Expression}
    {column : TargetType × List (Option Attribute)} (h : scalarColumn? kind expr = some column) :
    column.1.raw? = none := by
  cases kind <;> cases h <;> rfl

theorem raw?_coreFieldOf {dialect : Dialect} {policy : IdentityPolicy} {name raw kept : String}
    {expr : Column.Expression}
    (h : (coreFieldOf dialect policy name raw expr).fieldType.raw? = some kept) : kept = raw := by
  revert h
  apply coreFieldOf_cases (motive := fun field => field.fieldType.raw? = some kept → kept = raw)
  case key =>
    intro _ h
    rw [primaryKeyField, raw?_identityField] at h
    cases h
  case unmapped =>
    intro _ h
    cases h
    rfl
  case enumeration =>
    intro request _ _ _ h
    cases h
  case scalar =>
    intro kind column _ _ hcolumn h
    rw [fieldOf, raw?_of_scalarColumn? hcolumn] at h
    cases h

/-- An unmapped field keeps the expression of its declaration. -/
theorem raw?_mappedField {dialect : Dialect} {policy : IdentityPolicy} {field : FieldDeclaration}
    {raw : String} (h : (mappedField dialect policy field).fieldType.raw? = some raw) :
    raw = field.expression := by
  cases hparse : Column.parse field.expression with
  | error error =>
      rw [mappedField, hparse] at h
      cases h
      rfl
  | ok expr =>
      rw [fieldType_mappedField hparse] at h
      exact raw?_coreFieldOf h

/-! ### Names of types -/

theorem isIdentifier_typeName {type : TargetType}
    (h : ∀ enumeration, type ≠ .enumeration enumeration) : isIdentifier type.name = true := by
  cases type with
  | enumeration name => exact absurd rfl (h name)
  | unmapped raw => exact (by decide : isIdentifier "String" = true)
  | _ => decide

/-- What is no identifier in the name of a type comes from the enumeration that the field asks
for. -/
theorem exists_request_of_mem_typeName {dialect : Dialect} {policy : IdentityPolicy}
    {field : FieldDeclaration} {c : Char} (hc : isIdentifierRest c = false)
    (h : c ∈ (mappedField dialect policy field).fieldType.name.toList) :
    ∃ request ∈ fieldRequests dialect field, c ∈ (pascalCase request.1).toList := by
  by_cases henum : ∃ enumeration,
      (mappedField dialect policy field).fieldType = .enumeration enumeration
  · obtain ⟨enumeration, htype⟩ := henum
    obtain ⟨request, hrequest, rfl⟩ := fieldType_mappedField_eq_enumeration_iff.1 htype
    rw [htype] at h
    exact ⟨request, hrequest, h⟩
  · have hidentifier := isIdentifier_typeName (not_exists.1 henum)
    have hrest := isIdentifierRest_of_isIdentifier hidentifier c h
    rw [hc] at hrest
    cases hrest

/-- A field without attributes has the name of the enumeration that it asks for, because another
name would be kept in an attribute. -/
theorem fst_eq_name_of_attributes_eq_nil {dialect : Dialect} {policy : IdentityPolicy}
    {field : FieldDeclaration} (h : (mappedField dialect policy field).attributes = [])
    {request : String × List String} (hrequest : request ∈ fieldRequests dialect field) :
    request.1 = field.name := by
  cases hparse : Column.parse field.expression with
  | error error =>
      rw [fieldRequests, hparse] at hrequest
      cases hrequest
  | ok expr =>
      rw [fieldRequests, hparse] at hrequest
      rw [attributes_mappedField hparse, List.append_eq_nil_iff] at h
      have hdeclared := (coreFieldOf_of_mem_requests hrequest policy "" "").1
      have hcolumn : expr.columnName? = some request.1 := by
        unfold declaredEnum? at hdeclared
        split at hdeclared
        · split at hdeclared
          · cases hdeclared
            assumption
          · cases hdeclared
        · cases hdeclared
      by_contra hne
      simp [columnMap?, hcolumn, hne] at h

end TableModels.Mapping
