import TableModels.Proofs.Mapping.DeclaredFields

/-!
# Attributes of mapped fields

The attributes of a mapped field fit its type and each other: at most one of them gives a default,
no two are of one kind, and the name of the column stands last. What a column says about itself
decides which of its attributes are present. But all that is asked of the attributes is inherited by
a part of them, so that it is enough to look at the fullest list that a column of each family can
have.
-/

namespace TableModels

namespace Attribute

/-! ### What is asked of attributes -/

/-- The attribute can stand on a field of the type. -/
@[simp]
def Fits (type : TargetType) : Attribute → Prop
  | id | map _ => True
  | varChar _ | char _ | defaultString _ | unique | uuid | defaultUuid => type = .string
  | defaultInt literal => type = .int ∧ IsIntegerText literal
  | decimalPrecision _ _ => type = .decimal
  | defaultDecimal literal => type = .decimal ∧ IsDecimalText literal
  | defaultBool _ => type = .boolean
  | defaultEnum _ => ∃ enumeration, type = .enumeration enumeration
  | defaultNow | defaultNowUpdatedAt | updatedAt => type = .dateTime
  | defaultAutoincrement => type = .int ∨ type = .bigInt

/-- The attribute gives its field a default. -/
@[simp]
def isDefault : Attribute → Bool
  | defaultAutoincrement | defaultUuid | defaultInt _ | defaultString _ | defaultBool _
  | defaultDecimal _ | defaultEnum _ | defaultNow | defaultNowUpdatedAt => true
  | _ => false

/-- The attributes differ at most in the values that they carry. -/
@[simp]
def SameKind (first second : Attribute) : Prop :=
  first.ctorIdx = second.ctorIdx

/-- The attribute neither marks an identity field nor names a column. -/
def IsPlain (attr : Attribute) : Prop :=
  attr ≠ id ∧ ∀ column, attr ≠ map column

theorem SameKind.exists_map {attr : Attribute} {column : String} (h : attr.SameKind (map column)) :
    ∃ other, attr = map other := by
  cases attr <;> first | exact ⟨_, rfl⟩ | cases h

end Attribute

/-- The attributes fit the type of a field, and each other. -/
structure GoTogether (type : TargetType) (attributes : List Attribute) : Prop where
  fits : ∀ attr ∈ attributes, attr.Fits type
  oneDefault : attributes.countP Attribute.isDefault ≤ 1
  notBothTimes : ¬ (.defaultNow ∈ attributes ∧ .updatedAt ∈ attributes)
  kindsDiffer : attributes.Pairwise fun first second => ¬ first.SameKind second

namespace GoTogether

variable {type : TargetType} {attributes full : List Attribute}

/-- A part of attributes that go together go together. -/
theorem sublist (h : GoTogether type full) (hpart : attributes.Sublist full) :
    GoTogether type attributes where
  fits attr hattr := h.fits attr (hpart.subset hattr)
  oneDefault := Nat.le_trans hpart.countP_le h.oneDefault
  notBothTimes both := h.notBothTimes ⟨hpart.subset both.1, hpart.subset both.2⟩
  kindsDiffer := h.kindsDiffer.sublist hpart

theorem nil : GoTogether type [] := by
  constructor <;> simp

theorem singleton {attr : Attribute} (h : attr.Fits type) : GoTogether type [attr] where
  fits other hother := by
    rw [List.mem_singleton.mp hother]
    exact h
  oneDefault := List.countP_le_length
  notBothTimes both := by
    have hnow := List.mem_singleton.mp both.1
    have hupdated := List.mem_singleton.mp both.2
    cases hnow.trans hupdated.symm
  kindsDiffer := List.pairwise_singleton _ _

/-- The name of a column goes with any attributes that have none yet. -/
theorem append_map (h : GoTogether type attributes) (hnone : ∀ column, .map column ∉ attributes)
    (column : String) : GoTogether type (attributes ++ [.map column]) := by
  constructor
  case fits =>
    intro attr hattr
    rcases List.mem_append.mp hattr with hbefore | hlast
    · exact h.fits attr hbefore
    · rw [List.mem_singleton.mp hlast]
      exact trivial
  case oneDefault =>
    rw [List.countP_append]
    exact h.oneDefault
  case notBothTimes =>
    simpa using h.notBothTimes
  case kindsDiffer =>
    apply List.pairwise_append.mpr
    refine ⟨h.kindsDiffer, List.pairwise_singleton _ _, ?_⟩
    intro attr hattr last hlast hsame
    rw [List.mem_singleton.mp hlast] at hsame
    obtain ⟨other, rfl⟩ := hsame.exists_map
    exact hnone other hattr

end GoTogether

namespace Mapping

open Column (Expression)

/-! ### Columns with all their attributes -/

/-- The attribute is the only one that the slot can hold. -/
def FillsSlot (slot : Option Attribute) (full : Attribute) : Prop :=
  ∀ attr ∈ slot, attr = full

theorem reduceOption_sublist {slots : List (Option Attribute)} {full : List Attribute}
    (h : List.Forall₂ FillsSlot slots full) : slots.reduceOption.Sublist full := by
  induction h with
  | nil => exact List.Sublist.refl _
  | @cons slot attr slots full hslot _ ih =>
      cases slot with
      | none => exact ih.cons attr
      | some found =>
          obtain rfl : found = attr := hslot found rfl
          exact ih.cons_cons found

theorem fillsSlot_some (attr : Attribute) : FillsSlot (some attr) attr :=
  fun _ h => (Option.some.inj h).symm

theorem fillsSlot_attributeIf (condition : Bool) (added : Attribute) :
    FillsSlot (attributeIf condition added) added :=
  fun _ => eq_of_mem_attributeIf

/-- A slot in which there are only attributes of a kind that can be made is filled by one of
them. -/
theorem exists_fillsSlot {slot : Option Attribute} {IsMade : Attribute → Prop}
    (hslot : ∀ attr ∈ slot, IsMade attr) (hmade : ∃ attr, IsMade attr) :
    ∃ attr, IsMade attr ∧ FillsSlot slot attr := by
  cases slot with
  | none =>
      obtain ⟨attr, hattr⟩ := hmade
      exact ⟨attr, hattr, fun _ h => nomatch h⟩
  | some attr => exact ⟨attr, hslot attr rfl, fillsSlot_some attr⟩

theorem exists_fillsSlot_map {α : Type} [Inhabited α] (make : α → Attribute) (given : Option α) :
    ∃ value, FillsSlot (given.map make) (make value) := by
  have hslot : ∀ attr ∈ given.map make, ∃ value, attr = make value := by
    intro attr hattr
    obtain ⟨value, -, rfl⟩ := Option.map_eq_some_iff.mp hattr
    exact ⟨value, rfl⟩
  obtain ⟨_, ⟨value, rfl⟩, hfills⟩ := exists_fillsSlot hslot ⟨_, default, rfl⟩
  exact ⟨value, hfills⟩

/-- The slots of a column that a rule covers are filled by attributes that go together, none of
which marks an identity field or names a column. -/
theorem exists_full_of_scalarColumn? {kind : ColumnKind} {expr : Expression}
    {column : TargetType × List (Option Attribute)} (h : scalarColumn? kind expr = some column) :
    ∃ full, List.Forall₂ FillsSlot column.2 full ∧ GoTogether column.1 full ∧
      ∀ attr ∈ full, attr.IsPlain := by
  cases kind <;> cases h
  case bigInt | text | json => exact ⟨[], .nil, .nil, by simp⟩
  case integer =>
    obtain ⟨_, ⟨literal, hliteral, rfl⟩, hdefault⟩ :=
      exists_fillsSlot (fun _ => @exists_of_mem_integerDefault? expr _) ⟨_, "0", rfl, rfl⟩
    have hfits : (Attribute.defaultInt literal).Fits .int :=
      ⟨rfl, isIntegerText_of_isIntegerLiteral hliteral⟩
    exact ⟨_, .cons hdefault .nil, .singleton hfits, by simp [Attribute.IsPlain]⟩
  case serial | bigSerial =>
    exact ⟨_, .cons (fillsSlot_some _) .nil, .singleton (by simp),
      by simp [Attribute.IsPlain]⟩
  case varChar | char =>
    obtain ⟨length, hlength⟩ := exists_fillsSlot_map _ (uint32Option? expr "length")
    obtain ⟨_, ⟨value, rfl⟩, hdefault⟩ :=
      exists_fillsSlot (fun _ => @exists_of_mem_stringDefault? expr _) ⟨_, "", rfl⟩
    refine ⟨_, .cons hlength (.cons hdefault (.cons (fillsSlot_attributeIf _ .unique) .nil)), ?_,
      by simp [Attribute.IsPlain]⟩
    constructor <;> simp [Attribute.ctorIdx, List.countP_cons]
  case boolean =>
    obtain ⟨_, ⟨value, rfl⟩, hdefault⟩ :=
      exists_fillsSlot (fun _ => @exists_of_mem_boolDefault? expr _) ⟨_, true, rfl⟩
    exact ⟨_, .cons hdefault .nil, .singleton rfl, by simp [Attribute.IsPlain]⟩
  case decimal =>
    obtain ⟨precision, hprecision⟩ := exists_fillsSlot_map _ (uint32Option? expr "precision")
    obtain ⟨_, ⟨literal, hliteral, rfl⟩, hdefault⟩ :=
      exists_fillsSlot (fun _ => @exists_of_mem_decimalDefault? expr _) ⟨_, "0", rfl, rfl⟩
    have htext := isDecimalText_of_isDecimalLiteral hliteral
    refine ⟨_, .cons hprecision (.cons hdefault .nil), ?_, by simp [Attribute.IsPlain]⟩
    constructor <;> simp [Attribute.ctorIdx, List.countP_cons, htext]
  case timestamp =>
    obtain ⟨attr, hattr, htime⟩ :=
      exists_fillsSlot (fun _ => @eq_of_mem_timeAttribute? expr _) ⟨_, Or.inl rfl⟩
    refine ⟨[attr], .cons htime .nil, .singleton ?_, ?_⟩
    · rcases hattr with rfl | rfl | rfl <;> rfl
    · rcases hattr with rfl | rfl | rfl <;> simp [Attribute.IsPlain]
  case uuid =>
    refine ⟨_, .cons (fillsSlot_some _) (.cons (fillsSlot_attributeIf _ .defaultUuid) .nil), ?_,
      by simp [Attribute.IsPlain]⟩
    constructor <;> simp [Attribute.ctorIdx, List.countP_cons]

/-- The attributes of a column that a rule covers go together, and are plain. -/
theorem goTogether_fieldOf {name : String} {column : TargetType × List (Option Attribute)}
    {full : List Attribute} (hslots : List.Forall₂ FillsSlot column.2 full)
    (hfull : GoTogether column.1 full) (hplain : ∀ attr ∈ full, attr.IsPlain) :
    GoTogether (fieldOf name column).fieldType (fieldOf name column).attributes ∧
      ∀ attr ∈ (fieldOf name column).attributes, attr.IsPlain := by
  have hpart : (fieldOf name column).attributes.Sublist full := reduceOption_sublist hslots
  exact ⟨hfull.sublist hpart, fun attr hattr => hplain attr (hpart.subset hattr)⟩

section KeyColumns

variable {policy : IdentityPolicy} {kind : Option ColumnKind} {incremented : Prop}
  {type : TargetType} {attributes : List Attribute}

/-- The attributes of a primary key go together. -/
theorem KeyColumn.goTogether
    (h : KeyColumn policy kind incremented type attributes) : GoTogether type attributes := by
  cases h with
  | large _ _ | kept _ _ _ =>
      constructor <;> simp [Attribute.ctorIdx, List.countP_cons]
  | generated _ _ =>
      have hfull : GoTogether .string ([.id, .defaultUuid] ++ [.uuid]) := by
        constructor <;> simp [Attribute.ctorIdx, List.countP_cons]
      apply hfull.sublist
      apply (List.Sublist.refl [Attribute.id, .defaultUuid]).append
      split
      · exact List.Sublist.refl _
      · exact List.nil_sublist _

theorem KeyColumn.map_notMem (h : KeyColumn policy kind incremented type attributes)
    (column : String) : .map column ∉ attributes := by
  intro hmap
  rcases h.eq_of_mem hmap with hother | hother | hother | hother <;> cases hother

end KeyColumns

/-! ### Fields before their column names -/

/-- The field of a readable expression, before its column name and its nullability are settled: its
attributes go together, it is an identity field when it is a primary key, and it is optional when no
rule maps it. -/
structure IsSoundCore (expr : Expression) (field : MappedField) : Prop where
  attributes : GoTogether field.fieldType field.attributes
  noMap : ∀ column, .map column ∉ field.attributes
  identity : .id ∈ field.attributes ↔ expr.has "primaryKey" = true
  optional : field.isOptional = field.fieldType.isUnmapped
  mapped : .id ∈ field.attributes → field.fieldType.isUnmapped = false

theorem isSoundCore_of_plain {expr : Expression} {field : MappedField}
    (hkey : expr.has "primaryKey" = false)
    (hattributes : GoTogether field.fieldType field.attributes ∧
      ∀ attr ∈ field.attributes, attr.IsPlain)
    (hoptional : field.isOptional = field.fieldType.isUnmapped) : IsSoundCore expr field where
  attributes := hattributes.1
  noMap column hmap := (hattributes.2 _ hmap).2 column rfl
  identity := iff_of_false (fun hid => (hattributes.2 _ hid).1 rfl) (by simp [hkey])
  optional := hoptional
  mapped hid := absurd rfl (hattributes.2 _ hid).1

theorem isSoundCore_coreFieldOf (dialect : Dialect) (policy : IdentityPolicy) (name raw : String)
    (expr : Expression) : IsSoundCore expr (coreFieldOf dialect policy name raw expr) := by
  apply coreFieldOf_cases (motive := IsSoundCore expr)
  case key =>
    intro hkey
    obtain ⟨type, attributes, hcolumn, hfield⟩ := exists_primaryKeyField policy name dialect expr
    rw [hfield]
    exact ⟨hcolumn.goTogether, hcolumn.map_notMem, iff_of_true hcolumn.id_mem hkey,
      hcolumn.isUnmapped.symm, fun _ => hcolumn.isUnmapped⟩
  case unmapped =>
    intro hkey
    exact isSoundCore_of_plain hkey ⟨.nil, by simp [unmappedField]⟩ rfl
  case enumeration =>
    intro request hkey _ _
    obtain ⟨_, ⟨value, rfl⟩, hdefault⟩ :=
      exists_fillsSlot (fun _ => @exists_of_mem_enumDefault? expr _) ⟨_, "", rfl⟩
    refine isSoundCore_of_plain hkey ?_ rfl
    exact goTogether_fieldOf (.cons hdefault .nil) (.singleton ⟨_, rfl⟩)
      (by simp [Attribute.IsPlain])
  case scalar =>
    intro kind column hkey _ hcolumn
    obtain ⟨full, hslots, hfull, hplain⟩ := exists_full_of_scalarColumn? hcolumn
    refine isSoundCore_of_plain hkey (goTogether_fieldOf hslots hfull hplain) ?_
    rw [TargetType.isUnmapped, fieldOf, raw?_of_scalarColumn? hcolumn]
    rfl

/-! ### Mapped fields -/

/-- A field is well formed for its declaration: its attributes fit its type and each other, the name
of its column stands last and differs from its own, it is an identity field exactly when the
declaration is of a primary key, and it is optional exactly when it is no identity field and either
no rule maps it or it is not told to be present. -/
structure IsWellFormed (declaration : FieldDeclaration) (field : MappedField) : Prop where
  attributes : GoTogether field.fieldType field.attributes
  mapLast : ∀ front column back, field.attributes = front ++ .map column :: back →
    back = [] ∧ column ≠ field.name
  identity : .id ∈ field.attributes ↔
    ∃ expr, Column.parse declaration.expression = .ok expr ∧ expr.has "primaryKey" = true
  optional : field.isOptional = true ↔ field.isIdentity = false ∧
    (field.fieldType.isUnmapped = true ∨
      ∃ expr, Column.parse declaration.expression = .ok expr ∧ expr.has "notNull" = false)

theorem isOptional_withAttribute? (field : MappedField) (added : Option Attribute) :
    (field.withAttribute? added).isOptional = field.isOptional := by
  cases added <;> rfl

/-- The name of a column makes no identity field. -/
theorem id_mem_append_columnMap?_iff {attributes : List Attribute} {name : String}
    {expr : Expression} :
    .id ∈ attributes ++ (columnMap? name expr).toList ↔ .id ∈ attributes := by
  rw [List.mem_append, Option.mem_toList]
  apply or_iff_left
  intro hmap
  obtain ⟨column, -, -, hid⟩ := columnMap?_eq_some_iff.mp hmap
  cases hid

theorem IsSoundCore.isOptional_iff {expr : Expression} {core : MappedField}
    (h : IsSoundCore expr core) (name : String) :
    let named := core.withAttribute? (columnMap? name expr)
    let field := if expr.has "notNull" then named else named.asOptional
    field.isOptional = true ↔ field.isIdentity = false ∧
      (field.fieldType.isUnmapped = true ∨ expr.has "notNull" = false) := by
  intro named field
  have hidentity : named.isIdentity = true ↔ .id ∈ core.attributes := by
    rw [MappedField.isIdentity_iff_mem, MappedField.attributes_withAttribute?,
      id_mem_append_columnMap?_iff]
  have hoptional : named.isOptional = core.fieldType.isUnmapped :=
    (isOptional_withAttribute? core _).trans h.optional
  have hmapped : core.fieldType.isUnmapped = true → named.isIdentity = false := by
    intro hunmapped
    rw [Bool.eq_false_iff]
    intro hid
    rw [h.mapped (hidentity.mp hid)] at hunmapped
    cases hunmapped
  cases hnull : expr.has "notNull" with
  | true =>
      have hfield : field = named := if_pos hnull
      rw [hfield, hoptional, MappedField.fieldType_withAttribute?]
      simpa using hmapped
  | false =>
      have hfield : field = named.asOptional := if_neg (by simp [hnull])
      have hkept : field.isIdentity = named.isIdentity := by
        rw [hfield, MappedField.isIdentity, MappedField.attributes_asOptional]
        rfl
      rw [hkept, hfield, MappedField.isOptional_asOptional, hoptional]
      simpa using hmapped

theorem IsSoundCore.goTogether {expr : Expression} {core : MappedField}
    (h : IsSoundCore expr core) (name : String) :
    GoTogether core.fieldType (core.attributes ++ (columnMap? name expr).toList) := by
  cases hmap : columnMap? name expr with
  | none => simpa using h.attributes
  | some attr =>
      obtain ⟨column, -, -, rfl⟩ := columnMap?_eq_some_iff.mp hmap
      exact h.attributes.append_map h.noMap column

/-- Where a column is named, the attributes end, and the name is not that of the field. -/
theorem IsSoundCore.mapLast {expr : Expression} {core : MappedField} (h : IsSoundCore expr core)
    {name column : String} {front back : List Attribute}
    (hcut : core.attributes ++ (columnMap? name expr).toList = front ++ .map column :: back) :
    back = [] ∧ column ≠ name := by
  have hnone : ∀ rest, core.attributes ≠ front ++ .map column :: rest := by
    intro rest hattributes
    apply h.noMap column
    rw [hattributes]
    exact List.mem_append_right front List.mem_cons_self
  cases hmap : columnMap? name expr with
  | none =>
      rw [hmap, Option.toList_none, List.append_nil] at hcut
      exact absurd hcut (hnone back)
  | some attr =>
      obtain ⟨own, -, hname, rfl⟩ := columnMap?_eq_some_iff.mp hmap
      rw [hmap, Option.toList_some] at hcut
      rcases List.eq_nil_or_concat back with rfl | ⟨rest, last, rfl⟩
      · obtain ⟨-, hlast⟩ := List.append_inj' hcut rfl
        cases hlast
        exact ⟨rfl, hname⟩
      · have hsplit : core.attributes ++ [.map own] =
            (front ++ .map column :: rest) ++ [last] := by
          rw [hcut, List.append_assoc, List.cons_append, List.concat_eq_append]
        exact absurd (List.append_inj' hsplit rfl).1 (hnone rest)

theorem isWellFormed_mappedField (dialect : Dialect) (policy : IdentityPolicy)
    (declaration : FieldDeclaration) :
    IsWellFormed declaration (mappedField dialect policy declaration) := by
  cases hparse : Column.parse declaration.expression with
  | error error =>
      have hfield : mappedField dialect policy declaration =
          unmappedField declaration.name declaration.expression := by
        rw [mappedField, hparse]
      rw [hfield]
      constructor
      case attributes => exact .nil
      case mapLast =>
        intro front column back hcut
        exact absurd hcut.symm (by simp [unmappedField])
      case identity => simp [unmappedField, hparse]
      case optional =>
        simp [unmappedField, MappedField.isIdentity, TargetType.isUnmapped, TargetType.raw?]
  | ok expr =>
      have hcore := isSoundCore_coreFieldOf dialect policy declaration.name declaration.expression
        expr
      constructor
      case attributes =>
        rw [fieldType_mappedField hparse, attributes_mappedField hparse]
        exact hcore.goTogether declaration.name
      case mapLast =>
        intro front column back hcut
        rw [attributes_mappedField hparse] at hcut
        rw [name_mappedField]
        exact hcore.mapLast hcut
      case identity =>
        rw [attributes_mappedField hparse, id_mem_append_columnMap?_iff, hcore.identity]
        simp [hparse]
      case optional =>
        rw [mappedField, hparse]
        exact (hcore.isOptional_iff declaration.name).trans (by simp)

/-- A field that a declaration is mapped to is well formed for it. -/
theorem well_formed_of_mapField {dialect : Dialect} {policy : IdentityPolicy}
    {registry after : EnumRegistry} {declaration : FieldDeclaration} {field : MappedField}
    (h : mapField dialect policy registry declaration = .ok (field, after)) :
    IsWellFormed declaration field := by
  rw [mapField_eq] at h
  cases hregister : registry.registerAll (fieldRequests dialect declaration) with
  | error error =>
      rw [hregister] at h
      cases h
  | ok last =>
      rw [hregister] at h
      cases h
      exact isWellFormed_mappedField dialect policy declaration

theorem well_formed_of_mapField_total :
    let declaration : FieldDeclaration :=
      ⟨"total", "decimal('sum', \x7b precision: 10 \x7d).default('-1.50')", 1⟩
    let field : MappedField :=
      ⟨"total", .decimal, [.decimalPrecision 10 0, .defaultDecimal "-1.50", .map "sum"], true⟩
    mapField .mysql .uuid (EnumRegistry.empty .error) declaration =
        .ok (field, EnumRegistry.empty .error) ∧
      IsWellFormed declaration field := by
  intro declaration field
  have hmapped : mapField .mysql .uuid (EnumRegistry.empty .error) declaration =
      .ok (field, EnumRegistry.empty .error) :=
    toOption_eq_some_iff.mp (by decide +kernel)
  exact ⟨hmapped, well_formed_of_mapField hmapped⟩

end Mapping

end TableModels
