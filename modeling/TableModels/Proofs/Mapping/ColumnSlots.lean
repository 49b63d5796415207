import TableModels.Mapping.FieldMapping

/-!
# What a column can say about itself

A column has a slot for each thing that an attribute can say about it: its length, its default, the
times that it keeps. A slot is empty or holds an attribute of its own kind, and the literals that a
default is written by have the form that the target document asks for.
-/

namespace TableModels

/-- One or more decimal digits. -/
def IsNumeral (text : List Char) : Prop :=
  text ≠ [] ∧ ∀ c ∈ text, c.isDigit = true

/-- A minus sign, or nothing. -/
def IsSign (text : List Char) : Prop :=
  text = [] ∨ text = ['-']

/-- A numeral that may have a sign. -/
def IsIntegerText (text : String) : Prop :=
  ∃ sign digits, IsSign sign ∧ IsNumeral digits ∧ text.toList = sign ++ digits

/-- A numeral that may have a sign, and behind it a point and another numeral. -/
def IsDecimalText (text : String) : Prop :=
  ∃ sign whole fraction, IsSign sign ∧ IsNumeral whole ∧
    (fraction = [] ∨ ∃ digits, IsNumeral digits ∧ fraction = '.' :: digits) ∧
    text.toList = sign ++ (whole ++ fraction)

namespace Mapping

open Column (Expression)

/-! ### Literals -/

theorem isNumeral_of_isDigits {text : List Char} (h : isDigits text = true) : IsNumeral text := by
  simpa [isDigits, IsNumeral] using h

theorem exists_sign (text : List Char) : ∃ sign, IsSign sign ∧ text = sign ++ withoutSign text := by
  unfold withoutSign
  split
  · exact ⟨['-'], Or.inr rfl, rfl⟩
  · exact ⟨[], Or.inl rfl, rfl⟩

theorem isIntegerText_of_isIntegerLiteral {literal : String} (h : isIntegerLiteral literal = true) :
    IsIntegerText literal := by
  obtain ⟨sign, hsign, htext⟩ := exists_sign literal.toList
  exact ⟨sign, _, hsign, isNumeral_of_isDigits h, htext⟩

theorem isIntegerLiteral_of_isIntegerText {literal : String} (h : IsIntegerText literal) :
    isIntegerLiteral literal = true := by
  obtain ⟨sign, digits, hsign, ⟨hne, hdigits⟩, htext⟩ := h
  have hall : isDigits digits = true := by
    simpa [isDigits, hne] using hdigits
  have hplain : withoutSign digits = digits := by
    unfold withoutSign
    split
    · exact absurd (hdigits '-' List.mem_cons_self) (by decide)
    · rfl
  rw [isIntegerLiteral, htext]
  rcases hsign with rfl | rfl
  · rw [List.nil_append, hplain, hall]
  · exact hall

theorem isDecimalText_of_isDecimalLiteral {literal : String} (h : isDecimalLiteral literal = true) :
    IsDecimalText literal := by
  obtain ⟨sign, hsign, htext⟩ := exists_sign literal.toList
  rw [← List.takeWhile_append_dropWhile (p := (· != '.'))
    (l := withoutSign literal.toList)] at htext
  unfold isDecimalLiteral at h
  dsimp only at h
  split at h
  · rename_i hdrop
    exact ⟨sign, _, _, hsign, isNumeral_of_isDigits h, Or.inl hdrop, htext⟩
  · rename_i point digits hdrop
    obtain ⟨hwhole, hdigits⟩ := Bool.and_eq_true_iff.mp h
    have hpoint := List.head_dropWhile_not (p := (· != '.')) (l := withoutSign literal.toList)
      (by simp [hdrop])
    simp only [hdrop, List.head_cons, bne_eq_false_iff_eq] at hpoint
    subst hpoint
    exact ⟨sign, _, _, hsign, isNumeral_of_isDigits hwhole,
      Or.inr ⟨digits, isNumeral_of_isDigits hdigits, hdrop⟩, htext⟩

/-! ### Slots -/

variable {expr : Expression} {attr : Attribute}

theorem exists_of_mem_integerDefault? (h : attr ∈ integerDefault? expr) :
    ∃ literal, isIntegerLiteral literal = true ∧ attr = .defaultInt literal := by
  unfold integerDefault? at h
  split at h
  · split at h
    · rename_i hliteral
      cases h
      exact ⟨_, hliteral.2, rfl⟩
    · cases h
  · cases h

theorem exists_of_mem_decimalDefault? (h : attr ∈ decimalDefault? expr) :
    ∃ literal, isDecimalLiteral literal = true ∧ attr = .defaultDecimal literal := by
  unfold decimalDefault? at h
  repeat' split at h
  all_goals cases h
  all_goals exact ⟨_, by assumption, rfl⟩

theorem exists_of_mem_stringDefault? (h : attr ∈ stringDefault? expr) :
    ∃ value, attr = .defaultString value := by
  unfold stringDefault? at h
  split at h <;> cases h <;> exact ⟨_, rfl⟩

theorem exists_of_mem_boolDefault? (h : attr ∈ boolDefault? expr) :
    ∃ value, attr = .defaultBool value := by
  unfold boolDefault? at h
  split at h <;> cases h
  exact ⟨_, rfl⟩

theorem exists_of_mem_enumDefault? (h : attr ∈ enumDefault? expr) :
    ∃ value, attr = .defaultEnum (memberName value) := by
  unfold enumDefault? at h
  split at h <;> cases h
  exact ⟨_, rfl⟩

theorem eq_of_mem_timeAttribute? (h : attr ∈ timeAttribute? expr) :
    attr = .defaultNowUpdatedAt ∨ attr = .defaultNow ∨ attr = .updatedAt := by
  unfold timeAttribute? at h
  dsimp only at h
  split at h <;> cases h
  · exact Or.inl rfl
  · exact Or.inr (Or.inl rfl)
  · exact Or.inr (Or.inr rfl)

theorem eq_of_mem_attributeIf {condition : Bool} {added : Attribute}
    (h : attr ∈ attributeIf condition added) : attr = added := by
  cases condition <;> cases h
  rfl

/-- The name of a column is kept when it differs from that of its field. -/
theorem columnMap?_eq_some_iff {name : String} :
    columnMap? name expr = some attr ↔
      ∃ column, expr.columnName? = some column ∧ column ≠ name ∧ attr = .map column := by
  unfold columnMap?
  cases expr.columnName? with
  | none => simp
  | some column =>
      by_cases hname : column = name
      · simp [hname]
      · simp only [hname, if_false, Option.some.injEq]
        constructor
        · rintro rfl
          exact ⟨column, rfl, hname, rfl⟩
        · rintro ⟨other, rfl, -, rfl⟩
          rfl

end Mapping

end TableModels
