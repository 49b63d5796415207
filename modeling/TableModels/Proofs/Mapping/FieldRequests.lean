import TableModels.Proofs.Enumeration.Registration
import TableModels.Proofs.Mapping.ColumnSlots
import Mathlib.Data.List.ReduceOption

/-!
# What mapping fields asks of the registry

Mapping a field asks the registry for at most one registration. Which registration that is, and
which field comes of it, can be told from the declaration alone; the registry only decides whether
the mapping goes through. So mapping fields is registering what they ask for, in their order.
-/

namespace TableModels.Mapping

open Column (Expression)

/-- The enumeration that an expression asks to be registered. -/
def expressionRequests (dialect : Dialect) (expr : Expression) : List (String × List String) :=
  if expr.has "primaryKey" then []
  else if dialect.columnKind? expr.base.name = some .enumeration then (declaredEnum? expr).toList
  else []

/-- The enumeration that a field asks to be registered. -/
def fieldRequests (dialect : Dialect) (field : FieldDeclaration) : List (String × List String) :=
  match Column.parse field.expression with
  | .error _ => []
  | .ok expr => expressionRequests dialect expr

/-- The field of a readable expression before its column name and its nullability are settled. -/
def coreFieldOf (dialect : Dialect) (policy : IdentityPolicy) (name raw : String)
    (expr : Expression) : MappedField :=
  let kind := dialect.columnKind? expr.base.name
  if expr.has "primaryKey" then
    primaryKeyField policy name kind expr
  else
    match kind with
    | none => unmappedField name raw
    | some .enumeration =>
        match declaredEnum? expr with
        | none => unmappedField name raw
        | some (enumName, _) =>
            fieldOf name (.enumeration (pascalCase enumName), [enumDefault? expr])
    | some kind =>
        match scalarColumn? kind expr with
        | some column => fieldOf name column
        | none => unmappedField name raw

/-- What the field of a readable expression can be: that of a primary key, an unmapped one, one of
an enumeration, or one of another column that a rule covers. -/
theorem coreFieldOf_cases {dialect : Dialect} {policy : IdentityPolicy} {name raw : String}
    {expr : Expression} {motive : MappedField → Prop}
    (key : expr.has "primaryKey" = true →
      motive (primaryKeyField policy name (dialect.columnKind? expr.base.name) expr))
    (unmapped : expr.has "primaryKey" = false → motive (unmappedField name raw))
    (enumeration : ∀ request : String × List String, expr.has "primaryKey" = false →
      dialect.columnKind? expr.base.name = some .enumeration → declaredEnum? expr = some request →
      motive (fieldOf name (.enumeration (pascalCase request.1), [enumDefault? expr])))
    (scalar : ∀ kind column, expr.has "primaryKey" = false →
      dialect.columnKind? expr.base.name = some kind → scalarColumn? kind expr = some column →
      motive (fieldOf name column)) :
    motive (coreFieldOf dialect policy name raw expr) := by
  unfold coreFieldOf
  dsimp only
  split
  · rename_i hkey
    exact key hkey
  · rename_i hkey
    rw [Bool.not_eq_true] at hkey
    split
    · exact unmapped hkey
    · rename_i hkind
      split
      · exact unmapped hkey
      · rename_i enumName values hdeclared
        exact enumeration (enumName, values) hkey hkind hdeclared
    · rename_i hkind
      split
      · rename_i hcolumn
        exact scalar _ _ hkey hkind hcolumn
      · exact unmapped hkey

/-- The field of a declaration, provided that its enumeration can be registered. -/
def mappedField (dialect : Dialect) (policy : IdentityPolicy) (field : FieldDeclaration) :
    MappedField :=
  match Column.parse field.expression with
  | .error _ => unmappedField field.name field.expression
  | .ok expr =>
      let named := (coreFieldOf dialect policy field.name field.expression expr).withAttribute?
        (columnMap? field.name expr)
      if expr.has "notNull" then named else named.asOptional

theorem coreField_eq (dialect : Dialect) (policy : IdentityPolicy) (registry : EnumRegistry)
    (name raw : String) (expr : Expression) :
    coreField dialect policy registry name raw expr =
      (registry.registerAll (expressionRequests dialect expr)).map fun after =>
        (coreFieldOf dialect policy name raw expr, after) := by
  unfold coreField expressionRequests coreFieldOf
  split
  · rfl
  · cases hkind : dialect.columnKind? expr.base.name with
    | none => rfl
    | some kind =>
        cases kind with
        | enumeration =>
            cases hdeclared : declaredEnum? expr with
            | none => rfl
            | some declared =>
                obtain ⟨enumName, values⟩ := declared
                simp only [↓reduceIte, Option.toList_some, EnumRegistry.registerAll]
                cases hregister : registry.register enumName values with
                | error error => rfl
                | ok answer =>
                    have hcanonical : answer.2 = pascalCase enumName :=
                      EnumRegistry.snd_of_register hregister
                    simp only [hcanonical]
                    rfl
        | _ =>
            simp only [reduceCtorEq, Option.some.injEq, ↓reduceIte, EnumRegistry.registerAll]
            generalize scalarColumn? _ expr = column
            cases column <;> rfl

theorem mapField_eq (dialect : Dialect) (policy : IdentityPolicy) (registry : EnumRegistry)
    (field : FieldDeclaration) :
    mapField dialect policy registry field =
      (registry.registerAll (fieldRequests dialect field)).map fun after =>
        (mappedField dialect policy field, after) := by
  unfold mapField fieldRequests mappedField
  cases Column.parse field.expression with
  | error error => rfl
  | ok expr =>
      simp only [mapExpression, coreField_eq]
      cases registry.registerAll (expressionRequests dialect expr) <;> rfl

/-- Mapping fields is registering what they ask for, in order. -/
theorem mapFields_eq (dialect : Dialect) (policy : IdentityPolicy) (registry : EnumRegistry)
    (fields : List FieldDeclaration) :
    mapFields dialect policy registry fields =
      (registry.registerAll (fields.flatMap (fieldRequests dialect))).map fun last =>
        (fields.map (mappedField dialect policy), last) := by
  induction fields generalizing registry with
  | nil => rfl
  | cons field rest ih =>
      rw [mapFields, mapField_eq, List.flatMap_cons, EnumRegistry.registerAll_append]
      cases registry.registerAll (fieldRequests dialect field) with
      | error error => rfl
      | ok after =>
          simp only [Except.map, Except.bind, ih]
          cases after.registerAll (rest.flatMap (fieldRequests dialect)) <;> rfl

/-- Fields that are mapped are those of their declarations. -/
theorem eq_map_mappedField_of_mapFields {dialect : Dialect} {policy : IdentityPolicy}
    {registry after : EnumRegistry} {declarations : List FieldDeclaration}
    {fields : List MappedField}
    (h : mapFields dialect policy registry declarations = .ok (fields, after)) :
    fields = declarations.map (mappedField dialect policy) := by
  rw [mapFields_eq] at h
  cases hregister : registry.registerAll (declarations.flatMap (fieldRequests dialect)) with
  | error error =>
      rw [hregister] at h
      cases h
  | ok last =>
      rw [hregister] at h
      exact (congrArg Prod.fst (Except.ok.inj h)).symm

/-! ### Fields of an enumeration -/

theorem fieldType_identityField_ne (policy : IdentityPolicy) (name : String)
    (kind : Option ColumnKind) (autoincrement : Bool) (enumeration : String) :
    (identityField policy name kind autoincrement).fieldType ≠ .enumeration enumeration := by
  cases kind with
  | none => simp [identityField]
  | some kind => cases kind <;> cases autoincrement <;> cases policy <;> simp [identityField]

theorem fst_ne_of_scalarColumn? {kind : ColumnKind} {expr : Expression}
    {column : TargetType × List (Option Attribute)} (h : scalarColumn? kind expr = some column)
    (enumeration : String) : column.1 ≠ .enumeration enumeration := by
  cases kind <;> cases h <;> simp

/-- A request for an enumeration makes a field of its type, with the default of the expression. -/
theorem coreFieldOf_of_mem_requests {dialect : Dialect} {expr : Expression}
    {request : String × List String} (h : request ∈ expressionRequests dialect expr)
    (policy : IdentityPolicy) (name raw : String) :
    declaredEnum? expr = some request ∧
      coreFieldOf dialect policy name raw expr =
        fieldOf name (.enumeration (pascalCase request.1), [enumDefault? expr]) := by
  unfold expressionRequests at h
  split at h
  · cases h
  · rename_i hkey
    split at h
    · rename_i hkind
      have hdeclared : declaredEnum? expr = some request := Option.mem_toList.1 h
      exact ⟨hdeclared, by simp [coreFieldOf, hkey, hkind, hdeclared]⟩
    · cases h

/-- A field whose type is an enumeration comes of a request for it. -/
theorem exists_request_of_coreFieldOf {dialect : Dialect} {policy : IdentityPolicy}
    {name raw enumeration : String} {expr : Expression}
    (h : (coreFieldOf dialect policy name raw expr).fieldType = .enumeration enumeration) :
    ∃ request ∈ expressionRequests dialect expr, enumeration = pascalCase request.1 := by
  revert h
  apply coreFieldOf_cases (motive := fun field => field.fieldType = .enumeration enumeration →
    ∃ request ∈ expressionRequests dialect expr, enumeration = pascalCase request.1)
  case key =>
    intro _ h
    exact absurd h (fieldType_identityField_ne _ _ _ _ _)
  case unmapped =>
    intro _ h
    cases h
  case enumeration =>
    intro request hkey hkind hdeclared h
    cases h
    refine ⟨request, ?_, rfl⟩
    simp [expressionRequests, hkey, hkind, hdeclared]
  case scalar =>
    intro kind column _ _ hcolumn h
    exact absurd h (fst_ne_of_scalarColumn? hcolumn _)

theorem fieldType_mappedField {dialect : Dialect} {policy : IdentityPolicy}
    {field : FieldDeclaration} {expr : Expression} (h : Column.parse field.expression = .ok expr) :
    (mappedField dialect policy field).fieldType =
      (coreFieldOf dialect policy field.name field.expression expr).fieldType := by
  unfold mappedField
  rw [h]
  dsimp only
  split <;> simp

theorem attributes_mappedField {dialect : Dialect} {policy : IdentityPolicy}
    {field : FieldDeclaration} {expr : Expression} (h : Column.parse field.expression = .ok expr) :
    (mappedField dialect policy field).attributes =
      (coreFieldOf dialect policy field.name field.expression expr).attributes
        ++ (columnMap? field.name expr).toList := by
  unfold mappedField
  rw [h]
  dsimp only
  split <;> simp

/-- The fields of an enumeration are those that ask for it. -/
theorem fieldType_mappedField_eq_enumeration_iff {dialect : Dialect} {policy : IdentityPolicy}
    {field : FieldDeclaration} {enumeration : String} :
    (mappedField dialect policy field).fieldType = .enumeration enumeration ↔
      ∃ request ∈ fieldRequests dialect field, enumeration = pascalCase request.1 := by
  cases hparse : Column.parse field.expression with
  | error error => simp [mappedField, fieldRequests, hparse, unmappedField]
  | ok expr =>
      rw [fieldType_mappedField hparse, fieldRequests, hparse]
      constructor
      · exact exists_request_of_coreFieldOf
      · rintro ⟨request, hrequest, rfl⟩
        rw [(coreFieldOf_of_mem_requests hrequest policy field.name field.expression).2]
        rfl

/-- The one default of an enumeration field is that of its expression. -/
theorem defaultEnum_mem_attributes_iff {dialect : Dialect} {policy : IdentityPolicy}
    {field : FieldDeclaration} {expr : Expression}
    (hparse : Column.parse field.expression = .ok expr)
    {request : String × List String} (hrequest : request ∈ expressionRequests dialect expr)
    {member : String} :
    .defaultEnum member ∈ (mappedField dialect policy field).attributes ↔
      enumDefault? expr = some (.defaultEnum member) := by
  have hmap : .defaultEnum member ∉ (columnMap? field.name expr).toList := by
    rw [Option.mem_toList]
    intro h
    obtain ⟨column, -, -, hcolumn⟩ := columnMap?_eq_some_iff.mp h
    cases hcolumn
  rw [attributes_mappedField hparse,
    (coreFieldOf_of_mem_requests hrequest policy field.name field.expression).2, List.mem_append,
    or_iff_left hmap, fieldOf, List.reduceOption_mem_iff, List.mem_singleton]
  exact eq_comm

end TableModels.Mapping
