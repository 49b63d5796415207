import TableModels.Proofs.Document.Lines
import TableModels.Proofs.Mapping.PrimaryKeys

/-!
# What fields write bare

The default of an integer or decimal column and that of an enumeration column stand in the document
without quotes. Mapping keeps such a default only in a form that needs none: as a literal, or by the
name of a member.
-/

namespace TableModels.Mapping

open Column (Expression)
open Document (IsFlat)

/-- The text is a literal of a number or an identifier. -/
def IsPlainText (text : String) : Prop :=
  isIntegerLiteral text = true ∨ isDecimalLiteral text = true ∨ isIdentifier text = true

/-- What the attribute writes bare is plain. -/
def WritesPlain (attr : Attribute) : Prop :=
  ∀ bare ∈ attr.bare?, IsPlainText bare

/-! ### Plain texts -/

theorem newline_notMem_of_isNumeral {text : List Char} (h : IsNumeral text) : '\n' ∉ text :=
  fun hmem => absurd (h.2 _ hmem) (by decide)

theorem newline_notMem_of_isSign {text : List Char} (h : IsSign text) : '\n' ∉ text := by
  rcases h with rfl | rfl <;> decide

/-- A plain text contains no line feed. -/
theorem IsPlainText.isFlat {text : String} (h : IsPlainText text) : IsFlat text := by
  obtain hinteger | hdecimal | hidentifier := h
  · obtain ⟨sign, digits, hsign, hdigits, htext⟩ := isIntegerText_of_isIntegerLiteral hinteger
    rw [IsFlat, htext, List.mem_append, not_or]
    exact ⟨newline_notMem_of_isSign hsign, newline_notMem_of_isNumeral hdigits⟩
  · obtain ⟨sign, whole, fraction, hsign, hwhole, hfraction, htext⟩ :=
      isDecimalText_of_isDecimalLiteral hdecimal
    rw [IsFlat, htext, List.mem_append, not_or, List.mem_append, not_or]
    refine ⟨newline_notMem_of_isSign hsign, newline_notMem_of_isNumeral hwhole, ?_⟩
    obtain rfl | ⟨digits, hdigits, rfl⟩ := hfraction
    · exact List.not_mem_nil
    · simpa using newline_notMem_of_isNumeral hdigits
  · exact Document.isFlat_of_isIdentifier hidentifier

/-! ### Attributes -/

theorem writesPlain_of_bare?_eq_none {attr : Attribute} (h : attr.bare? = none) :
    WritesPlain attr := by
  intro bare hbare
  rw [h] at hbare
  cases hbare

theorem writesPlain_of_mem_integerDefault? {expr : Expression} {attr : Attribute}
    (h : attr ∈ integerDefault? expr) : WritesPlain attr := by
  obtain ⟨literal, hliteral, rfl⟩ := exists_of_mem_integerDefault? h
  intro bare hbare
  cases hbare
  exact Or.inl hliteral

theorem writesPlain_of_mem_decimalDefault? {expr : Expression} {attr : Attribute}
    (h : attr ∈ decimalDefault? expr) : WritesPlain attr := by
  obtain ⟨literal, hliteral, rfl⟩ := exists_of_mem_decimalDefault? h
  intro bare hbare
  cases hbare
  exact Or.inr (Or.inl hliteral)

theorem writesPlain_of_mem_enumDefault? {expr : Expression} {attr : Attribute}
    (h : attr ∈ enumDefault? expr) : WritesPlain attr := by
  obtain ⟨value, rfl⟩ := exists_of_mem_enumDefault? h
  intro bare hbare
  cases hbare
  exact Or.inr (Or.inr (isIdentifier_memberName _))

theorem writesPlain_of_mem_stringDefault? {expr : Expression} {attr : Attribute}
    (h : attr ∈ stringDefault? expr) : WritesPlain attr := by
  obtain ⟨value, rfl⟩ := exists_of_mem_stringDefault? h
  exact writesPlain_of_bare?_eq_none rfl

theorem writesPlain_of_mem_boolDefault? {expr : Expression} {attr : Attribute}
    (h : attr ∈ boolDefault? expr) : WritesPlain attr := by
  obtain ⟨value, rfl⟩ := exists_of_mem_boolDefault? h
  exact writesPlain_of_bare?_eq_none rfl

theorem writesPlain_of_mem_timeAttribute? {expr : Expression} {attr : Attribute}
    (h : attr ∈ timeAttribute? expr) : WritesPlain attr := by
  apply writesPlain_of_bare?_eq_none
  rcases eq_of_mem_timeAttribute? h with rfl | rfl | rfl <;> rfl

theorem writesPlain_of_mem_attributeIf {condition : Bool} {added attr : Attribute}
    (hadded : added.bare? = none) (h : attr ∈ attributeIf condition added) :
    WritesPlain attr := by
  rw [eq_of_mem_attributeIf h]
  exact writesPlain_of_bare?_eq_none hadded

theorem writesPlain_of_mem_map {α : Type} {make : α → Attribute}
    (hmake : ∀ value, (make value).bare? = none) {given : Option α} {attr : Attribute}
    (h : attr ∈ given.map make) : WritesPlain attr := by
  obtain ⟨value, -, rfl⟩ := Option.map_eq_some_iff.1 h
  exact writesPlain_of_bare?_eq_none (hmake value)

/-! ### Columns -/

theorem writesPlain_of_scalarColumn? {kind : ColumnKind} {expr : Expression}
    {column : TargetType × List (Option Attribute)} (h : scalarColumn? kind expr = some column) :
    ∀ attr ∈ column.2.reduceOption, WritesPlain attr := by
  intro attr hattr
  rw [List.reduceOption_mem_iff] at hattr
  cases kind <;> cases h <;>
    simp only [List.mem_cons, List.not_mem_nil, or_false, Option.some.injEq] at hattr
  case integer => exact writesPlain_of_mem_integerDefault? hattr.symm
  case serial | bigSerial =>
    subst hattr
    exact writesPlain_of_bare?_eq_none rfl
  case varChar | char =>
    obtain hlength | hdefault | hunique := hattr
    · exact writesPlain_of_mem_map (fun _ => rfl) hlength.symm
    · exact writesPlain_of_mem_stringDefault? hdefault.symm
    · exact writesPlain_of_mem_attributeIf rfl hunique.symm
  case boolean => exact writesPlain_of_mem_boolDefault? hattr.symm
  case decimal =>
    obtain hprecision | hdefault := hattr
    · exact writesPlain_of_mem_map (fun _ => rfl) hprecision.symm
    · exact writesPlain_of_mem_decimalDefault? hdefault.symm
  case timestamp => exact writesPlain_of_mem_timeAttribute? hattr.symm
  case uuid =>
    obtain rfl | hrandom := hattr
    · exact writesPlain_of_bare?_eq_none rfl
    · exact writesPlain_of_mem_attributeIf rfl hrandom.symm

theorem KeyColumn.writesPlain {policy : IdentityPolicy} {kind : Option ColumnKind}
    {incremented : Prop} {type : TargetType} {attributes : List Attribute}
    (h : KeyColumn policy kind incremented type attributes) :
    ∀ attr ∈ attributes, WritesPlain attr := by
  intro attr hattr
  apply writesPlain_of_bare?_eq_none
  rcases h.eq_of_mem hattr with rfl | rfl | rfl | rfl <;> rfl

theorem writesPlain_of_coreFieldOf {dialect : Dialect} {policy : IdentityPolicy}
    {name raw : String} {expr : Expression} :
    ∀ attr ∈ (coreFieldOf dialect policy name raw expr).attributes, WritesPlain attr := by
  apply coreFieldOf_cases (motive := fun field => ∀ attr ∈ field.attributes, WritesPlain attr)
  case key =>
    intro _
    obtain ⟨type, attributes, hcolumn, hfield⟩ := exists_primaryKeyField policy name dialect expr
    rw [hfield]
    exact hcolumn.writesPlain
  case unmapped =>
    intro _ attr hattr
    cases hattr
  case enumeration =>
    intro request _ _ _ attr hattr
    rw [fieldOf, List.reduceOption_mem_iff, List.mem_singleton] at hattr
    exact writesPlain_of_mem_enumDefault? hattr.symm
  case scalar =>
    intro kind column _ _ hcolumn
    exact writesPlain_of_scalarColumn? hcolumn

/-- What a field of a table writes bare is plain. -/
theorem writesPlain_of_mappedField {dialect : Dialect} {policy : IdentityPolicy}
    {field : FieldDeclaration} :
    ∀ attr ∈ (mappedField dialect policy field).attributes, WritesPlain attr := by
  intro attr hattr
  cases hparse : Column.parse field.expression with
  | error error =>
      rw [mappedField, hparse] at hattr
      cases hattr
  | ok expr =>
      rw [attributes_mappedField hparse, List.mem_append] at hattr
      obtain hcore | hmap := hattr
      · exact writesPlain_of_coreFieldOf attr hcore
      · obtain ⟨column, -, -, rfl⟩ := columnMap?_eq_some_iff.mp (Option.mem_toList.mp hmap)
        exact writesPlain_of_bare?_eq_none rfl

end TableModels.Mapping
