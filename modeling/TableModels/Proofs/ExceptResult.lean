/-!
# Results that may be errors

How a test of a result, which can be evaluated, is turned into the equation that theorems about the
result speak of.
-/

namespace TableModels

@[simp] theorem toOption_ok {ε α : Type} (value : α) :
    (.ok value : Except ε α).toOption = some value := rfl

@[simp] theorem toOption_error {ε α : Type} (error : ε) :
    (.error error : Except ε α).toOption = none := rfl

theorem toOption_eq_some_iff {ε α : Type} {result : Except ε α} {value : α} :
    result.toOption = some value ↔ result = .ok value := by
  cases result <;> simp [Except.toOption]

theorem toOption_map {ε α β : Type} (f : α → β) (result : Except ε α) :
    (result.map f).toOption = result.toOption.map f := by
  cases result <;> rfl

theorem toOption_bind {ε α β : Type} (next : α → Except ε β) (result : Except ε α) :
    (result.bind next).toOption = result.toOption.bind fun value => (next value).toOption := by
  cases result <;> rfl

theorem exists_eq_ok_of_isOk {ε α : Type} {result : Except ε α} (h : result.isOk = true) :
    ∃ value, result = .ok value := by
  cases result with
  | error error => cases h
  | ok value => exact ⟨value, rfl⟩

theorem mapError_eq_ok_iff {ε δ α : Type} {wrap : ε → δ} {result : Except ε α} {value : α} :
    result.mapError wrap = .ok value ↔ result = .ok value := by
  constructor
  · intro h
    cases result with
    | error error => cases h
    | ok found => cases h; rfl
  · rintro rfl
    rfl

theorem map_eq_ok_iff {ε α β : Type} {f : α → β} {result : Except ε α} {value : β} :
    result.map f = .ok value ↔ ∃ found, result = .ok found ∧ f found = value := by
  cases result <;> simp [Except.map]

theorem map_eq_error_iff {ε α β : Type} {f : α → β} {result : Except ε α} {error : ε} :
    result.map f = .error error ↔ result = .error error := by
  cases result <;> simp [Except.map]

theorem bind_eq_ok_iff {ε α β : Type} {result : Except ε α} {next : α → Except ε β} {value : β} :
    (result >>= next) = .ok value ↔ ∃ first, result = .ok first ∧ next first = .ok value := by
  cases result with
  | error error => simp [bind, Except.bind]
  | ok first => simp [bind, Except.bind]

theorem bind_eq_error_iff {ε α β : Type} {result : Except ε α} {next : α → Except ε β} {error : ε} :
    (result >>= next) = .error error ↔
      result = .error error ∨ ∃ first, result = .ok first ∧ next first = .error error := by
  cases result with
  | error other => simp [bind, Except.bind]
  | ok first => simp [bind, Except.bind]

/-- A change of the value at the end can be made at every step. -/
theorem bind_eq_map_bind {ε α β : Type} {change : β → β} {result : Except ε α}
    {next changed : α → Except ε β} (h : ∀ value, changed value = (next value).map change) :
    result >>= changed = (result >>= next).map change := by
  cases result with
  | error error => rfl
  | ok value => exact h value

end TableModels
