import TableModels.Naming

/-! # Enumerations

An enumeration has a canonical name and a list of distinct values. Two values may differ and yet go
by one member name in the target document; such a pair is a clash, and it is found in the order of
the values. -/

namespace TableModels

/-- An enumeration under its canonical name, with its distinct values in first-seen order. -/
structure EnumDeclaration where
  name : String
  values : List String
  deriving DecidableEq

/-- A second definition of an enumeration that was set aside in favour of the first. -/
structure EnumConflict where
  name : String
  existing : List String
  incoming : List String
  deriving DecidableEq

/-- What a second, different definition of an enumeration leads to. -/
inductive EnumConflictPolicy where
  /-- The run fails. -/
  | error
  /-- The first definition is kept and the second one is recorded. -/
  | firstWins
  deriving DecidableEq

namespace EnumDeclaration

/-- The values without repetitions, each at the place where it is seen first. -/
def distinct : List String → List String
  | [] => []
  | value :: values => value :: (distinct values).filter (· != value)

theorem mem_distinct {value : String} {values : List String} :
    value ∈ distinct values ↔ value ∈ values := by
  induction values with
  | nil => simp [distinct]
  | cons first rest ih =>
      by_cases h : value = first <;> simp [distinct, h, ih]

theorem nodup_distinct (values : List String) : (distinct values).Nodup := by
  induction values with
  | nil => simp [distinct]
  | cons first rest ih =>
      have hrest : ((distinct rest).filter (· != first)).Nodup := List.Pairwise.filter _ ih
      simp only [distinct, List.nodup_cons]
      exact ⟨by simp, hrest⟩

/-- The first value that shares its member name with an earlier one, after that earlier one. -/
def clashAfter? (seen : List String) : List String → Option (String × String)
  | [] => none
  | value :: rest =>
      match seen.find? (fun earlier => memberName earlier == memberName value) with
      | some earlier => some (earlier, value)
      | none => clashAfter? (seen ++ [value]) rest

/-- The first two values of a list that go by one member name. -/
def clash? (values : List String) : Option (String × String) :=
  clashAfter? [] values

end EnumDeclaration

end TableModels
