import TableModels.Model.Field

/-!
# Fields made in steps

A field begins as a required one without attributes. From then on attributes are added to it and it
is made optional, in any order and any number of times. Making a field optional passes over an
identity field, but the identity attribute is added to whatever field there is. So the two are not
kept apart by the steps themselves: a field that is made optional first and an identity field later
is both.
-/

namespace TableModels

/-- A step in the making of a field. -/
inductive FieldStep where
  | addAttribute (added : Attribute)
  | makeOptional
  deriving DecidableEq

namespace MappedField

/-- The field after one more step. -/
def afterStep (field : MappedField) : FieldStep → MappedField
  | .addAttribute added => field.withAttribute added
  | .makeOptional => field.asOptional

/-- The field after steps in their order. -/
def afterSteps (field : MappedField) (steps : List FieldStep) : MappedField :=
  steps.foldl afterStep field

theorem isIdentity_iff_mem {field : MappedField} :
    field.isIdentity = true ↔ .id ∈ field.attributes :=
  List.contains_iff_mem

/-! ### One step -/

theorem fieldType_afterStep (field : MappedField) (step : FieldStep) :
    (field.afterStep step).fieldType = field.fieldType := by
  cases step with
  | addAttribute added => rfl
  | makeOptional => exact fieldType_asOptional field

/-- A step makes an identity field only by adding the identity attribute. -/
theorem isIdentity_afterStep (field : MappedField) (step : FieldStep) :
    (field.afterStep step).isIdentity = true ↔
      field.isIdentity = true ∨ step = .addAttribute .id := by
  cases step with
  | addAttribute added =>
      simp only [afterStep, withAttribute, isIdentity_iff_mem, List.mem_append,
        List.mem_singleton, FieldStep.addAttribute.injEq, eq_comm (a := added)]
  | makeOptional => simp [afterStep, isIdentity_iff_mem]

theorem isOptional_asOptional (field : MappedField) :
    field.asOptional.isOptional = true ↔ field.isOptional = true ∨ field.isIdentity = false := by
  by_cases hidentity : field.isIdentity = true
  · simp [asOptional_of_isIdentity hidentity, hidentity]
  · simp [asOptional, hidentity]

/-- A step makes a field optional only when it is no identity field at that time. -/
theorem isOptional_afterStep (field : MappedField) (step : FieldStep) :
    (field.afterStep step).isOptional = true ↔
      field.isOptional = true ∨ field.isIdentity = false ∧ step = .makeOptional := by
  cases step with
  | addAttribute added => simp [afterStep, withAttribute]
  | makeOptional => exact (isOptional_asOptional field).trans (by rw [and_iff_left rfl])

/-! ### Any number of steps -/

theorem fieldType_afterSteps (field : MappedField) (steps : List FieldStep) :
    (field.afterSteps steps).fieldType = field.fieldType := by
  induction steps generalizing field with
  | nil => rfl
  | cons step rest ih => exact (ih (field.afterStep step)).trans (fieldType_afterStep field step)

theorem isIdentity_afterSteps (field : MappedField) (steps : List FieldStep) :
    (field.afterSteps steps).isIdentity = true ↔
      field.isIdentity = true ∨ .addAttribute .id ∈ steps := by
  induction steps generalizing field with
  | nil => simp [afterSteps]
  | cons step rest ih =>
      calc
        (field.afterSteps (step :: rest)).isIdentity = true ↔
            (field.afterStep step).isIdentity = true ∨ FieldStep.addAttribute .id ∈ rest :=
          ih (field.afterStep step)
        _ ↔ (field.isIdentity = true ∨ step = .addAttribute .id) ∨
              FieldStep.addAttribute .id ∈ rest := by
          rw [isIdentity_afterStep]
        _ ↔ field.isIdentity = true ∨ FieldStep.addAttribute .id ∈ step :: rest := by
          rw [List.mem_cons, or_assoc, eq_comm (a := step)]

/-- The field is made optional at a time when the identity attribute has not been added. -/
def MadeOptionalInTime (steps : List FieldStep) : Prop :=
  ∃ front back, steps = front ++ .makeOptional :: back ∧ .addAttribute .id ∉ front

theorem madeOptionalInTime_cons_iff {step : FieldStep} {rest : List FieldStep} :
    MadeOptionalInTime (step :: rest) ↔
      step = .makeOptional ∨ step ≠ .addAttribute .id ∧ MadeOptionalInTime rest := by
  constructor
  · rintro ⟨front, back, hsteps, hfront⟩
    cases front with
    | nil => exact Or.inl (List.cons.inj hsteps).1
    | cons first front =>
        obtain ⟨rfl, rfl⟩ := List.cons.inj hsteps
        rw [List.mem_cons, not_or] at hfront
        exact Or.inr ⟨Ne.symm hfront.1, front, back, rfl, hfront.2⟩
  · rintro (rfl | ⟨hstep, front, back, rfl, hfront⟩)
    · exact ⟨[], rest, rfl, List.not_mem_nil⟩
    · refine ⟨step :: front, back, rfl, ?_⟩
      rw [List.mem_cons, not_or]
      exact ⟨Ne.symm hstep, hfront⟩

theorem isOptional_afterSteps (field : MappedField) (steps : List FieldStep) :
    (field.afterSteps steps).isOptional = true ↔
      field.isOptional = true ∨ field.isIdentity = false ∧ MadeOptionalInTime steps := by
  induction steps generalizing field with
  | nil => simp [afterSteps, MadeOptionalInTime]
  | cons step rest ih =>
      have hidentity : (field.afterStep step).isIdentity = false ↔
          field.isIdentity = false ∧ step ≠ .addAttribute .id := by
        rw [← Bool.not_eq_true, isIdentity_afterStep, not_or, Bool.not_eq_true]
      calc
        (field.afterSteps (step :: rest)).isOptional = true ↔
            (field.afterStep step).isOptional = true ∨
              (field.afterStep step).isIdentity = false ∧ MadeOptionalInTime rest :=
          ih (field.afterStep step)
        _ ↔ (field.isOptional = true ∨ field.isIdentity = false ∧ step = .makeOptional) ∨
              (field.isIdentity = false ∧ step ≠ .addAttribute .id) ∧ MadeOptionalInTime rest := by
          rw [isOptional_afterStep, hidentity]
        _ ↔ field.isOptional = true ∨
              field.isIdentity = false ∧ MadeOptionalInTime (step :: rest) := by
          rw [madeOptionalInTime_cons_iff, or_assoc, and_assoc, ← and_or_left]

/-! ### From the beginning -/

/-- After any steps a field is an identity field when the identity attribute was added, and optional
when it was made so before that. It is both exactly when the identity attribute came too late. The
suffix of the type stands once, for an optional field, however often it was made optional. -/
theorem identity_and_optional_iff (name : String) (type : TargetType) (steps : List FieldStep) :
    let field := (required name type).afterSteps steps
    (field.isIdentity = true ↔ .addAttribute .id ∈ steps) ∧
      (field.isOptional = true ↔ MadeOptionalInTime steps) ∧
      (field.isIdentity = true ∧ field.isOptional = true ↔
        ∃ front back, steps = front ++ .makeOptional :: back ∧
          .addAttribute .id ∉ front ∧ .addAttribute .id ∈ back) ∧
      field.typeExpression = type.name ++ if field.isOptional then "?" else "" := by
  intro field
  have hidentity : field.isIdentity = true ↔ .addAttribute .id ∈ steps := by
    have hplain : (required name type).isIdentity ≠ true := Bool.false_ne_true
    exact (isIdentity_afterSteps _ _).trans (or_iff_right hplain)
  have hoptional : field.isOptional = true ↔ MadeOptionalInTime steps := by
    have hrequired : (required name type).isOptional ≠ true := Bool.false_ne_true
    exact (isOptional_afterSteps _ _).trans ((or_iff_right hrequired).trans (and_iff_right rfl))
  refine ⟨hidentity, hoptional, ?_, ?_⟩
  · rw [hidentity, hoptional]
    constructor
    · rintro ⟨hid, front, back, rfl, hfront⟩
      refine ⟨front, back, rfl, hfront, ?_⟩
      simpa [hfront] using hid
    · rintro ⟨front, back, rfl, hfront, hback⟩
      refine ⟨?_, front, back, rfl, hfront⟩
      exact List.mem_append_right front (List.mem_cons_of_mem _ hback)
  · have htype : field.fieldType = type := fieldType_afterSteps _ _
    rw [typeExpression, htype]
    split
    · rfl
    · exact (String.append_empty).symm

/-- An optional field that is made an identity field stays optional. -/
theorem identity_of_optional_is_nullable :
    let field := (required "id" .int).afterSteps [.makeOptional, .addAttribute .id]
    field.isIdentity = true ∧ field.isOptional = true ∧ field.typeExpression = "Int?" := by
  decide

end MappedField

end TableModels
