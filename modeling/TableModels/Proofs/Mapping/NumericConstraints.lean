import TableModels.Proofs.Column.Numerals
import TableModels.Proofs.Mapping.FieldRequests

/-!
# Numbers of mapped fields

The numbers of a column are those that are written in its expression. The length of a text, and the
precision and the scale of a decimal number, are kept when 32 bits hold them and left out when they
do not, so that no number is ever kept in part. A whole default is kept as it is written, without
underscores and white space.

## Implementation notes

Each of these attributes has a slot of its own, the first one of its column, and no other slot holds
an attribute of its kind. So what is kept is read off one slot.
-/

namespace TableModels

namespace Attribute

/-- The attribute limits the length of a text. -/
def isLength : Attribute → Bool
  | varChar _ | char _ => true
  | _ => false

/-- The attribute gives the precision of a decimal number. -/
def isPrecision : Attribute → Bool
  | decimalPrecision _ _ => true
  | _ => false

/-- The attribute gives a whole number as default. -/
def isIntegerDefault : Attribute → Bool
  | defaultInt _ => true
  | _ => false

end Attribute

namespace Mapping

open Column (CallForm Expression ExpressionForm Token)

/-- The families of texts whose length is limited, with the attribute that limits it. -/
inductive LimitsLength : ColumnKind → (UInt32 → Attribute) → Prop
  | varChar : LimitsLength .varChar .varChar
  | char : LimitsLength .char .char

/-- The attributes limit the length to the number, once, and not at all when 32 bits do not hold the
number. -/
def KeepsLength (limit : UInt32 → Attribute) (n : Nat) (attributes : List Attribute) : Prop :=
  (n ≤ 4294967295 → ∃ length : UInt32, length.toNat = n ∧
    attributes.filter Attribute.isLength = [limit length]) ∧
  (4294967295 < n → attributes.filter Attribute.isLength = [])

/-- The attributes give the precision once, with the scale that is written, or with zero when there
is no numeral that 32 bits hold. -/
def KeepsPrecision (form : CallForm) (p : Nat) (attributes : List Attribute) : Prop :=
  ∃ precision scale : UInt32, precision.toNat = p ∧
    (∀ s ≤ 4294967295, form.HasNumber "scale" s → scale.toNat = s) ∧
    ((∀ s ≤ 4294967295, ¬ form.HasNumber "scale" s) → scale = 0) ∧
    attributes.filter Attribute.isPrecision = [.decimalPrecision precision scale]

/-! ### Columns that a rule covers -/

section Columns

variable {dialect : Dialect} {policy : IdentityPolicy} {registry : EnumRegistry}
  {field : FieldDeclaration} {expr : Expression} {kind : ColumnKind}

/-- A column that a rule covers and that is no primary key is mapped without the registry. Its
attributes are those that the rule finds, with the name of the column behind them. -/
theorem exists_mapField_of_scalarColumn? (hparse : Column.parse field.expression = .ok expr)
    (hkey : expr.has "primaryKey" = false)
    (hkind : dialect.columnKind? expr.base.name = some kind)
    {column : TargetType × List (Option Attribute)}
    (hcolumn : scalarColumn? kind expr = some column) :
    ∃ mapped, mapField dialect policy registry field = .ok (mapped, registry) ∧
      mapped.attributes = (column.2 ++ [columnMap? field.name expr]).reduceOption := by
  have hscalar : kind ≠ .enumeration := by
    rintro rfl
    cases hcolumn
  refine ⟨mappedField dialect policy field, ?_, ?_⟩
  · have hrequests : fieldRequests dialect field = [] := by
      simp [fieldRequests, hparse, expressionRequests, hkey, hkind, hscalar]
    rw [mapField_eq, hrequests]
    rfl
  · have hcore : coreFieldOf dialect policy field.name field.expression expr =
        fieldOf field.name column := by
      cases kind with
      | enumeration => exact absurd rfl hscalar
      | _ => simp [coreFieldOf, hkey, hkind, hcolumn]
    rw [attributes_mappedField hparse, hcore, List.reduceOption_append,
      List.reduceOption_singleton]
    rfl

/-- The attributes of a kind that the first slot alone can hold are the attribute in that slot. -/
theorem filter_reduceOption_of_first {p : Attribute → Bool} {slot : Option Attribute}
    {others : List (Option Attribute)} (hslot : ∀ attr ∈ slot, p attr = true)
    (hothers : ∀ other ∈ others, ∀ attr ∈ other, p attr = false) :
    (slot :: others).reduceOption.filter p = slot.toList := by
  have hnone : others.reduceOption.filter p = [] := by
    apply List.filter_eq_nil_iff.2
    intro attr hattr
    rw [List.reduceOption_mem_iff] at hattr
    exact Bool.eq_false_iff.1 (hothers _ hattr attr rfl)
  cases slot with
  | none => rw [List.reduceOption_cons_of_none, hnone, Option.toList_none]
  | some attr =>
      rw [List.reduceOption_cons_of_some, List.filter_cons_of_pos (hslot attr rfl), hnone,
        Option.toList_some]

/-- A column whose first slot alone can hold attributes of a kind has the one in that slot. -/
theorem exists_mapField_of_first {p : Attribute → Bool} {type : TargetType}
    {slot : Option Attribute} {others : List (Option Attribute)}
    (hparse : Column.parse field.expression = .ok expr) (hkey : expr.has "primaryKey" = false)
    (hkind : dialect.columnKind? expr.base.name = some kind)
    (hcolumn : scalarColumn? kind expr = some (type, slot :: others))
    (hslot : ∀ attr ∈ slot, p attr = true)
    (hothers : ∀ other ∈ others, ∀ attr ∈ other, p attr = false)
    (hmap : ∀ column, p (.map column) = false) :
    ∃ mapped, mapField dialect policy registry field = .ok (mapped, registry) ∧
      mapped.attributes.filter p = slot.toList := by
  obtain ⟨mapped, hmapped, hattributes⟩ :=
    exists_mapField_of_scalarColumn? hparse hkey hkind hcolumn
  refine ⟨mapped, hmapped, ?_⟩
  rw [hattributes, List.cons_append]
  apply filter_reduceOption_of_first hslot
  intro other hother attr hattr
  rcases List.mem_append.1 hother with hrule | hlast
  · exact hothers other hrule attr hattr
  · rw [List.mem_singleton.1 hlast] at hattr
    obtain ⟨column, -, -, rfl⟩ := columnMap?_eq_some_iff.1 hattr
    exact hmap column

theorem exists_mapField_of_limitsLength {limit : UInt32 → Attribute}
    (hlimit : LimitsLength kind limit) (hparse : Column.parse field.expression = .ok expr)
    (hkey : expr.has "primaryKey" = false)
    (hkind : dialect.columnKind? expr.base.name = some kind) :
    ∃ mapped, mapField dialect policy registry field = .ok (mapped, registry) ∧
      mapped.attributes.filter Attribute.isLength =
        ((uint32Option? expr "length").map limit).toList := by
  have hothers : ∀ other ∈ [stringDefault? expr, attributeIf (expr.has "unique") .unique],
      ∀ attr ∈ other, attr.isLength = false := by
    intro other hother attr hattr
    rcases List.mem_pair.1 hother with rfl | rfl
    · obtain ⟨value, rfl⟩ := exists_of_mem_stringDefault? hattr
      rfl
    · rw [eq_of_mem_attributeIf hattr]
      rfl
  have hslot : ∀ attr ∈ (uint32Option? expr "length").map limit, attr.isLength = true := by
    intro attr hattr
    obtain ⟨length, -, rfl⟩ := Option.map_eq_some_iff.1 hattr
    cases hlimit <;> rfl
  cases hlimit with
  | varChar | char =>
      exact exists_mapField_of_first hparse hkey hkind rfl hslot hothers fun _ => rfl

theorem exists_mapField_of_decimal (hparse : Column.parse field.expression = .ok expr)
    (hkey : expr.has "primaryKey" = false)
    (hkind : dialect.columnKind? expr.base.name = some .decimal) :
    ∃ mapped, mapField dialect policy registry field = .ok (mapped, registry) ∧
      mapped.attributes.filter Attribute.isPrecision = (precision? expr).toList := by
  apply exists_mapField_of_first hparse hkey hkind rfl
  · intro attr hattr
    obtain ⟨precision, -, rfl⟩ := Option.map_eq_some_iff.1 hattr
    rfl
  · intro other hother attr hattr
    rw [List.mem_singleton.1 hother] at hattr
    obtain ⟨literal, -, rfl⟩ := exists_of_mem_decimalDefault? hattr
    rfl
  · exact fun _ => rfl

theorem exists_mapField_of_integer (hparse : Column.parse field.expression = .ok expr)
    (hkey : expr.has "primaryKey" = false)
    (hkind : dialect.columnKind? expr.base.name = some .integer) :
    ∃ mapped, mapField dialect policy registry field = .ok (mapped, registry) ∧
      mapped.attributes.filter Attribute.isIntegerDefault = (integerDefault? expr).toList := by
  apply exists_mapField_of_first hparse hkey hkind rfl
  · intro attr hattr
    obtain ⟨literal, -, rfl⟩ := exists_of_mem_integerDefault? hattr
    rfl
  · intro other hother
    cases hother
  · exact fun _ => rfl

end Columns

/-! ### Numbers that are written -/

section Written

variable {tokens : List Token} {form : ExpressionForm} {start : Nat} {follow : List Char}

theorem keepsLength_of_hasNumber (hform : form.Spells tokens)
    (hscans : Column.Scans start tokens follow) {n : Nat}
    (h : form.base.HasNumber "length" n) {limit : UInt32 → Attribute} {attributes : List Attribute}
    (hattributes : attributes.filter Attribute.isLength =
      ((uint32Option? form.expression "length").map limit).toList) :
    KeepsLength limit n attributes := by
  have hsize : UInt32.size = 4294967296 := rfl
  have hread : uint32Option? form.expression "length" =
      if n < UInt32.size then some (UInt32.ofNat n) else none :=
    ExpressionForm.uint32?_of_hasNumber hform hscans h
  rw [hread] at hattributes
  constructor
  · intro hn
    have hlt : n < UInt32.size := by omega
    rw [if_pos hlt] at hattributes
    exact ⟨UInt32.ofNat n, UInt32.toNat_ofNat_of_lt' hlt, hattributes⟩
  · intro hn
    rw [if_neg (by omega)] at hattributes
    exact hattributes

theorem keepsPrecision_of_hasNumber (hform : form.Spells tokens)
    (hscans : Column.Scans start tokens follow) {p : Nat} (hp : p ≤ 4294967295)
    (h : form.base.HasNumber "precision" p) {attributes : List Attribute}
    (hattributes : attributes.filter Attribute.isPrecision =
      (precision? form.expression).toList) : KeepsPrecision form.base p attributes := by
  have hsize : UInt32.size = 4294967296 := rfl
  have hread : ∀ {key n}, form.base.HasNumber key n → n ≤ 4294967295 →
      uint32Option? form.expression key = some (UInt32.ofNat n) := by
    intro key n hnumber hn
    rw [uint32Option?, ExpressionForm.uint32?_of_hasNumber hform hscans hnumber,
      if_pos (by omega)]
  have hlt : p < UInt32.size := by omega
  rw [precision?, hread h hp] at hattributes
  refine ⟨UInt32.ofNat p, (uint32Option? form.expression "scale").getD 0,
    UInt32.toNat_ofNat_of_lt' hlt, ?_, ?_, hattributes⟩
  · intro s hs hscale
    have hlt : s < UInt32.size := by omega
    rw [hread hscale hs, Option.getD_some, UInt32.toNat_ofNat_of_lt' hlt]
  · intro hnone
    cases hscale : uint32Option? form.expression "scale" with
    | none => rfl
    | some scale =>
        have hwritten := ExpressionForm.hasNumber_of_uint32? hform hscans hscale
        exact absurd hwritten (hnone _ (Nat.le_of_lt_succ scale.toNat_lt))

/-- The default of an integer column that must not be null is kept as it is written. -/
theorem integerDefault?_of_hasDefault (hform : form.Spells tokens)
    (hscans : Column.Scans start tokens follow) {written : List Token}
    (hnotNull : ∃ member ∈ form.chain, member.name = "notNull") (hdefault : form.HasDefault written)
    (hinteger : Column.IsWrittenInteger written) :
    integerDefault? form.expression =
      some (.defaultInt (String.ofList (Column.compact (Column.runText written)))) := by
  obtain ⟨start', follow', hread⟩ := hform.exists_scans_of_hasDefault hscans hdefault
  obtain ⟨sign, first, rest, hsign, hfirst, hrest, htext, hvalue⟩ := hinteger.runValue_eq hread
  have hliteral : isIntegerLiteral (String.ofList (Column.compact (Column.runText written))) =
      true := by
    refine isIntegerLiteral_of_isIntegerText ⟨sign, first :: rest, hsign, ⟨?_, ?_⟩, ?_⟩
    · exact List.cons_ne_nil first rest
    · exact List.forall_mem_cons.2 ⟨hfirst, hrest⟩
    · rw [String.toList_ofList, htext]
  rw [integerDefault?, ExpressionForm.default?_of_hasDefault hdefault, hvalue]
  dsimp only
  rw [if_pos ⟨ExpressionForm.has_eq_true_iff.2 hnotNull, hliteral⟩]

end Written

/-- The numbers of a column are kept as they are written. -/
theorem mapField_keeps_numbers (dialect : Dialect) (policy : IdentityPolicy)
    (registry : EnumRegistry) (field : FieldDeclaration) {tokens : List Token}
    {form : ExpressionForm} (htokens : Column.tokenize field.expression.toList = .ok tokens)
    (hform : form.Spells tokens) (hkey : ∀ member ∈ form.chain, member.name ≠ "primaryKey") :
    (∀ kind limit n, LimitsLength kind limit → dialect.columnKind? form.base.name = some kind →
      form.base.HasNumber "length" n →
      ∃ mapped, mapField dialect policy registry field = .ok (mapped, registry) ∧
        KeepsLength limit n mapped.attributes) ∧
    (∀ p ≤ 4294967295, dialect.columnKind? form.base.name = some .decimal →
      form.base.HasNumber "precision" p →
      ∃ mapped, mapField dialect policy registry field = .ok (mapped, registry) ∧
        KeepsPrecision form.base p mapped.attributes) ∧
    ∀ written, dialect.columnKind? form.base.name = some .integer →
      (∃ member ∈ form.chain, member.name = "notNull") → form.HasDefault written →
      Column.IsWrittenInteger written →
      ∃ mapped, mapField dialect policy registry field = .ok (mapped, registry) ∧
        mapped.attributes.filter Attribute.isIntegerDefault =
          [.defaultInt (String.ofList (Column.compact (Column.runText written)))] := by
  have hparse : Column.parse field.expression = .ok form.expression :=
    Column.parse_eq_ok_iff.2 ⟨tokens, form, htokens, hform, rfl⟩
  have hplain : form.expression.has "primaryKey" = false := by
    apply Bool.eq_false_iff.2
    intro h
    obtain ⟨member, hmember, hname⟩ := ExpressionForm.has_eq_true_iff.1 h
    exact hkey member hmember hname
  obtain ⟨blank, -, -, hscans⟩ := Column.tokenize_eq_ok_iff.1 htokens
  refine ⟨?_, ?_, ?_⟩
  · intro kind limit n hlimit hkind hnumber
    obtain ⟨mapped, hmapped, hattributes⟩ :=
      exists_mapField_of_limitsLength hlimit hparse hplain hkind
    exact ⟨mapped, hmapped, keepsLength_of_hasNumber hform hscans hnumber hattributes⟩
  · intro p hp hkind hnumber
    obtain ⟨mapped, hmapped, hattributes⟩ := exists_mapField_of_decimal hparse hplain hkind
    exact ⟨mapped, hmapped, keepsPrecision_of_hasNumber hform hscans hp hnumber hattributes⟩
  · intro written hkind hnotNull hdefault hinteger
    obtain ⟨mapped, hmapped, hattributes⟩ := exists_mapField_of_integer hparse hplain hkind
    rw [integerDefault?_of_hasDefault hform hscans hnotNull hdefault hinteger] at hattributes
    exact ⟨mapped, hmapped, hattributes⟩

theorem mapField_keeps_numbers_varchar :
    ∃ mapped, mapField .mysql .uuid (EnumRegistry.empty .error)
        ⟨"mail", "varchar('e-mail', \x7b length: 0_255 \x7d).unique()", 1⟩ =
          .ok (mapped, EnumRegistry.empty .error) ∧
      mapped.attributes.filter Attribute.isLength = [.varChar 255] := by
  let text := "varchar('e-mail', \x7b length: 0_255 \x7d).unique()"
  obtain ⟨expr, hparse, hread⟩ : ∃ expr, (Column.parse text).toOption = some expr ∧
      (expr.base.name, expr.has "primaryKey", uint32Option? expr "length") =
        ("varchar", false, some 255) :=
    Option.map_eq_some_iff.1 (by decide +kernel)
  simp only [Prod.mk.injEq] at hread
  obtain ⟨tokens, form, htokens, hform, rfl⟩ :=
    Column.parse_eq_ok_iff.1 (toOption_eq_some_iff.1 hparse)
  obtain ⟨blank, -, -, hscans⟩ := Column.tokenize_eq_ok_iff.1 htokens
  have hkey : ∀ member ∈ form.chain, member.name ≠ "primaryKey" := by
    intro member hmember hname
    have hhas := ExpressionForm.has_eq_true_iff.2 ⟨member, hmember, hname⟩
    rw [hread.2.1] at hhas
    cases hhas
  have hkind : Dialect.mysql.columnKind? form.base.name = some .varChar := by
    have hname : form.base.name = "varchar" := hread.1
    rw [hname]
    rfl
  have hnumber : form.base.HasNumber "length" 255 :=
    ExpressionForm.hasNumber_of_uint32? hform hscans hread.2.2
  obtain ⟨hlength, -, -⟩ := mapField_keeps_numbers .mysql .uuid (EnumRegistry.empty .error)
    ⟨"mail", text, 1⟩ htokens hform hkey
  obtain ⟨mapped, hmapped, hkept, -⟩ := hlength .varChar .varChar 255 .varChar hkind hnumber
  obtain ⟨length, hlength, hattributes⟩ := hkept (by decide)
  have h255 : length = 255 := UInt32.toNat_inj.1 hlength
  exact ⟨mapped, hmapped, h255 ▸ hattributes⟩

example : ((mapField .mysql .uuid (EnumRegistry.empty .error)
    ⟨"count", "int().default(- 1_0).notNull()", 1⟩).toOption.map fun answer =>
      answer.1.attributes) = some [.defaultInt "-10"] := by
  decide +kernel

end Mapping

end TableModels
