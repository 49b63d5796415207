import TableModels.Proofs.ExceptResult
import TableModels.Proofs.Mapping.FieldRequests
import TableModels.Proofs.Model.FieldSteps

/-!
# Primary keys under the identity policies

What a primary key becomes is told by three rules, in which the policy, the family of the column and
whether it is incremented automatically are all that counts. A large integer that is incremented
keeps its type under every policy, a small one under the policy that preserves it, and any other key
becomes a generated string, also one that no rule for columns covers. So the policy matters for the
small integers that are incremented and for nothing else.
-/

namespace TableModels.Mapping

open Column (Expression)

/-- The family is one of large integers. -/
def IsLargeKind (kind : Option ColumnKind) : Prop :=
  kind = some .bigInt ∨ kind = some .bigSerial

/-- The family is one of integers that are not large. -/
def IsSmallKind (kind : Option ColumnKind) : Prop :=
  kind = some .integer ∨ kind = some .serial

/-- The column is incremented automatically: it says so, or its type call is a serial one. -/
def IsIncremented (dialect : Dialect) (expr : Expression) : Prop :=
  expr.has "autoincrement" = true ∨
    dialect.columnKind? expr.base.name = some .serial ∨
    dialect.columnKind? expr.base.name = some .bigSerial

/-- The type and the attributes of a primary key under a policy, from the family of its column and
whether it is incremented automatically. -/
inductive KeyColumn (policy : IdentityPolicy) (kind : Option ColumnKind) (incremented : Prop) :
    TargetType → List Attribute → Prop
  | large (hincremented : incremented) (hkind : IsLargeKind kind) :
      KeyColumn policy kind incremented .bigInt [.id, .defaultAutoincrement]
  | kept (hincremented : incremented) (hkind : IsSmallKind kind) (hpolicy : policy = .preserve) :
      KeyColumn policy kind incremented .int [.id, .defaultAutoincrement]
  | generated (hlarge : ¬ (incremented ∧ IsLargeKind kind))
      (hkept : ¬ (incremented ∧ IsSmallKind kind ∧ policy = .preserve)) :
      KeyColumn policy kind incremented .string
        ([.id, .defaultUuid] ++ if kind = some .uuid then [.uuid] else [])

variable {policy : IdentityPolicy} {kind : Option ColumnKind} {incremented : Prop}
  {type : TargetType} {attributes : List Attribute}

theorem KeyColumn.id_mem (h : KeyColumn policy kind incremented type attributes) :
    .id ∈ attributes := by
  cases h <;> exact List.mem_cons_self

theorem KeyColumn.eq_of_mem (h : KeyColumn policy kind incremented type attributes)
    {attr : Attribute} (hattr : attr ∈ attributes) :
    attr = .id ∨ attr = .defaultAutoincrement ∨ attr = .defaultUuid ∨ attr = .uuid := by
  cases h with
  | large _ _ | kept _ _ _ =>
      rw [List.mem_cons, List.mem_singleton] at hattr
      exact hattr.imp_right Or.inl
  | generated _ _ =>
      rw [List.mem_append, List.mem_cons, List.mem_singleton] at hattr
      rcases hattr with (rfl | rfl) | huuid
      · exact Or.inl rfl
      · exact Or.inr (Or.inr (Or.inl rfl))
      · split at huuid
        · exact Or.inr (Or.inr (Or.inr (List.mem_singleton.mp huuid)))
        · cases huuid

theorem KeyColumn.isUnmapped (h : KeyColumn policy kind incremented type attributes) :
    type.isUnmapped = false := by
  cases h <;> rfl

/-! ### Identity fields -/

theorem identityField_of_not (name : String) {autoincrement : Bool}
    (hlarge : ¬ (autoincrement = true ∧ IsLargeKind kind))
    (hkept : ¬ (autoincrement = true ∧ IsSmallKind kind ∧ policy = .preserve)) :
    identityField policy name kind autoincrement =
      ⟨name, .string, [.id, .defaultUuid] ++ if kind = some .uuid then [.uuid] else [], false⟩ := by
  cases kind with
  | none => rfl
  | some kind =>
      cases kind with
      | bigInt | bigSerial =>
          have hplain : autoincrement = false := by simpa [IsLargeKind] using hlarge
          subst hplain
          rfl
      | integer | serial =>
          have hneither : ¬ (autoincrement = true ∧ policy = .preserve) := fun h =>
            hkept ⟨h.1, by simp [IsSmallKind], h.2⟩
          simp only [identityField, if_neg hneither]
          rfl
      | _ => rfl

/-- An identity field has the column that the rules for primary keys give it. -/
theorem exists_keyColumn (policy : IdentityPolicy) (name : String) (kind : Option ColumnKind)
    (autoincrement : Bool) :
    ∃ type attributes, KeyColumn policy kind (autoincrement = true) type attributes ∧
      identityField policy name kind autoincrement = ⟨name, type, attributes, false⟩ := by
  by_cases hlarge : autoincrement = true ∧ IsLargeKind kind
  · refine ⟨_, _, .large hlarge.1 hlarge.2, ?_⟩
    obtain ⟨rfl, rfl | rfl⟩ := hlarge <;> rfl
  · by_cases hkept : autoincrement = true ∧ IsSmallKind kind ∧ policy = .preserve
    · refine ⟨_, _, .kept hkept.1 hkept.2.1 hkept.2.2, ?_⟩
      obtain ⟨rfl, rfl | rfl, rfl⟩ := hkept <;> rfl
    · exact ⟨_, _, .generated hlarge hkept, identityField_of_not name hlarge hkept⟩

theorem identityField_uuid_ne_iff (name : String) (kind : Option ColumnKind)
    (autoincrement : Bool) :
    identityField .uuid name kind autoincrement ≠ identityField .preserve name kind autoincrement ↔
      autoincrement = true ∧ IsSmallKind kind := by
  cases kind with
  | none => simp [identityField, IsSmallKind]
  | some kind => cases kind <;> cases autoincrement <;> simp [identityField, IsSmallKind]

/-! ### Primary key columns -/

variable {dialect : Dialect} {registry : EnumRegistry} {field : FieldDeclaration}
  {expr : Expression}

theorem isIncremented_iff :
    (expr.has "autoincrement" ||
        (dialect.columnKind? expr.base.name).any ColumnKind.impliesAutoincrement) = true ↔
      IsIncremented dialect expr := by
  rw [Bool.or_eq_true, IsIncremented]
  apply or_congr_right
  cases dialect.columnKind? expr.base.name with
  | none => simp
  | some kind => cases kind <;> simp [ColumnKind.impliesAutoincrement]

/-- A primary key has the column that the rules for primary keys give it. -/
theorem exists_primaryKeyField (policy : IdentityPolicy) (name : String) (dialect : Dialect)
    (expr : Expression) :
    ∃ type attributes,
      KeyColumn policy (dialect.columnKind? expr.base.name) (IsIncremented dialect expr) type
          attributes ∧
        primaryKeyField policy name (dialect.columnKind? expr.base.name) expr =
          ⟨name, type, attributes, false⟩ := by
  rw [← isIncremented_iff]
  exact exists_keyColumn policy name _ _

theorem withAttribute?_mk (name : String) (type : TargetType) (attributes : List Attribute)
    (optional : Bool) (added : Option Attribute) :
    (⟨name, type, attributes, optional⟩ : MappedField).withAttribute? added =
      ⟨name, type, attributes ++ added.toList, optional⟩ := by
  cases added with
  | none => simp [MappedField.withAttribute?]
  | some value => rfl

theorem withAttribute?_injective (added : Option Attribute) :
    Function.Injective fun field : MappedField => field.withAttribute? added := by
  intro field other h
  obtain ⟨name, type, attributes, optional⟩ := field
  obtain ⟨name', type', attributes', optional'⟩ := other
  simp only [withAttribute?_mk, MappedField.mk.injEq, List.append_cancel_right_eq] at h
  simp only [MappedField.mk.injEq]
  exact h

/-- A primary key asks for no enumeration, and stays required. -/
theorem mapField_of_primaryKey (policy : IdentityPolicy) (registry : EnumRegistry)
    (hparse : Column.parse field.expression = .ok expr) (hkey : expr.has "primaryKey" = true) :
    mapField dialect policy registry field =
      .ok ((primaryKeyField policy field.name (dialect.columnKind? expr.base.name)
        expr).withAttribute? (columnMap? field.name expr), registry) := by
  obtain ⟨type, attributes, hcolumn, hfield⟩ :=
    exists_primaryKeyField policy field.name dialect expr
  have hidentity : ((primaryKeyField policy field.name (dialect.columnKind? expr.base.name)
      expr).withAttribute? (columnMap? field.name expr)).isIdentity = true := by
    rw [MappedField.isIdentity_iff_mem, MappedField.attributes_withAttribute?, hfield]
    exact List.mem_append_left _ hcolumn.id_mem
  rw [mapField_eq, fieldRequests, mappedField, hparse]
  simp only [expressionRequests, coreFieldOf, hkey, if_true, EnumRegistry.registerAll, Except.map,
    MappedField.asOptional_of_isIdentity hidentity, ite_self]

/-- Without a primary key the policy does not matter. -/
theorem mapField_of_not_primaryKey (policy other : IdentityPolicy) (registry : EnumRegistry)
    (h : ∀ expr, Column.parse field.expression = .ok expr → expr.has "primaryKey" = false) :
    mapField dialect policy registry field = mapField dialect other registry field := by
  rw [mapField_eq, mapField_eq]
  have hfield : mappedField dialect policy field = mappedField dialect other field := by
    unfold mappedField
    cases hparse : Column.parse field.expression with
    | error error => rfl
    | ok expr => simp only [coreFieldOf, h expr hparse, Bool.false_eq_true, if_false]
  rw [hfield]

/-- Primary keys follow the rules under both policies, with the registry left as it is, and the two
policies map a field differently exactly when it is a primary key of a small integer column that is
incremented automatically. -/
theorem primary_keys_by_policy (dialect : Dialect) (registry : EnumRegistry)
    (field : FieldDeclaration) :
    (∀ expr, Column.parse field.expression = .ok expr → expr.has "primaryKey" = true →
        ∀ policy, ∃ type attributes,
          KeyColumn policy (dialect.columnKind? expr.base.name) (IsIncremented dialect expr) type
              attributes ∧
            type.isUnmapped = false ∧
            mapField dialect policy registry field =
              .ok (⟨field.name, type, attributes ++ (columnMap? field.name expr).toList, false⟩,
                registry)) ∧
      (mapField dialect .uuid registry field ≠ mapField dialect .preserve registry field ↔
        ∃ expr, Column.parse field.expression = .ok expr ∧ expr.has "primaryKey" = true ∧
          IsIncremented dialect expr ∧ IsSmallKind (dialect.columnKind? expr.base.name)) := by
  constructor
  · intro expr hparse hkey policy
    obtain ⟨type, attributes, hcolumn, hfield⟩ :=
      exists_primaryKeyField policy field.name dialect expr
    refine ⟨type, attributes, hcolumn, hcolumn.isUnmapped, ?_⟩
    rw [mapField_of_primaryKey policy registry hparse hkey, hfield, withAttribute?_mk]
  · by_cases hkey : ∃ expr, Column.parse field.expression = .ok expr ∧
        expr.has "primaryKey" = true
    · obtain ⟨expr, hparse, hkey⟩ := hkey
      rw [mapField_of_primaryKey .uuid registry hparse hkey,
        mapField_of_primaryKey .preserve registry hparse hkey]
      simp only [ne_eq, Except.ok.injEq, Prod.mk.injEq, and_true,
        (withAttribute?_injective _).eq_iff]
      rw [primaryKeyField, primaryKeyField]
      refine (identityField_uuid_ne_iff _ _ _).trans ?_
      rw [isIncremented_iff]
      constructor
      · intro h
        exact ⟨expr, hparse, hkey, h⟩
      · rintro ⟨read, hread, -, h⟩
        obtain rfl : expr = read := Except.ok.inj (hparse.symm.trans hread)
        exact h
    · have hnone : ∀ expr, Column.parse field.expression = .ok expr →
          expr.has "primaryKey" = false := fun expr hparse =>
        Bool.eq_false_iff.mpr fun h => hkey ⟨expr, hparse, h⟩
      constructor
      · intro hne
        exact absurd (mapField_of_not_primaryKey .uuid .preserve registry hnone) hne
      · rintro ⟨expr, hparse, h, -⟩
        exact absurd ⟨expr, hparse, h⟩ hkey

/-- A primary key whose type call is a serial one, under a column name of its own. -/
def serialKey : FieldDeclaration :=
  ⟨"id", "serial('key').primaryKey()", 1⟩

theorem primary_keys_by_policy_serial :
    mapField .pg .preserve (EnumRegistry.empty .error) serialKey =
        .ok (⟨"id", .int, [.id, .defaultAutoincrement, .map "key"], false⟩,
          EnumRegistry.empty .error) ∧
      mapField .pg .uuid (EnumRegistry.empty .error) serialKey ≠
        mapField .pg .preserve (EnumRegistry.empty .error) serialKey := by
  have hread : (Column.parse serialKey.expression).toOption.map
      (fun expr => (expr.has "primaryKey", expr.base.name, columnMap? "id" expr)) =
        some (true, "serial", some (.map "key")) := by
    decide +kernel
  obtain ⟨expr, hexpr, hvalues⟩ := Option.map_eq_some_iff.mp hread
  obtain ⟨hkey, hcall, hmap⟩ : expr.has "primaryKey" = true ∧ expr.base.name = "serial" ∧
      columnMap? "id" expr = some (.map "key") := by
    simpa only [Prod.mk.injEq] using hvalues
  have hparse : Column.parse serialKey.expression = .ok expr := toOption_eq_some_iff.mp hexpr
  have hkind : Dialect.pg.columnKind? expr.base.name = some .serial := by
    rw [hcall]
    rfl
  have hincremented : IsIncremented .pg expr := Or.inr (Or.inl hkind)
  obtain ⟨hrules, hdiffer⟩ := primary_keys_by_policy .pg (EnumRegistry.empty .error) serialKey
  constructor
  · obtain ⟨type, attributes, hcolumn, -, hmapped⟩ := hrules expr hparse hkey .preserve
    rw [hmapped, show columnMap? serialKey.name expr = some (.map "key") from hmap]
    rw [hkind] at hcolumn
    cases hcolumn with
    | large _ hlarge => simp [IsLargeKind] at hlarge
    | kept _ _ _ => rfl
    | generated _ hkept => exact absurd ⟨hincremented, Or.inr rfl, rfl⟩ hkept
  · exact hdiffer.mpr ⟨expr, hparse, hkey, hincremented, Or.inr hkind⟩

end TableModels.Mapping
