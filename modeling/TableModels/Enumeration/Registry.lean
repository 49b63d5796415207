import TableModels.ModelError

/-! # The registry of enumerations

The enumerations met so far, ordered by canonical name. Registering values under a name either
finds the same values there, or adds an entry, or meets a conflict, which the policy of the registry
settles. An entry that is there is never changed. -/

namespace TableModels

/-- The enumerations registered so far, in increasing order of their names, with the conflicts that
were set aside. -/
structure EnumRegistry where
  policy : EnumConflictPolicy
  entries : List EnumDeclaration := []
  conflicts : List EnumConflict := []
  deriving DecidableEq

namespace EnumRegistry

/-- The registry in which nothing has been registered. -/
def empty (policy : EnumConflictPolicy) : EnumRegistry :=
  { policy }

/-- The entry under a canonical name. -/
def find? (registry : EnumRegistry) (canonical : String) : Option EnumDeclaration :=
  registry.entries.find? (·.name == canonical)

/-- The entries with one more, put in front of the first entry with a larger name. -/
def insert (declaration : EnumDeclaration) : List EnumDeclaration → List EnumDeclaration
  | [] => [declaration]
  | entry :: entries =>
      if declaration.name < entry.name then
        declaration :: entry :: entries
      else
        entry :: insert declaration entries

theorem mem_insert {declaration entry : EnumDeclaration} {entries : List EnumDeclaration} :
    entry ∈ insert declaration entries ↔ entry = declaration ∨ entry ∈ entries := by
  induction entries with
  | nil => simp [insert]
  | cons first rest ih =>
      simp only [insert]
      split
      · simp
      · simp only [List.mem_cons, ih]
        exact or_left_comm

/-- Register values under the Pascal-case form of a name. The result is the registry afterwards with
that canonical name; under the policy `error` a conflict is refused, and so are values whose member
names clash. -/
def register (registry : EnumRegistry) (name : String) (values : List String) :
    Except ModelError (EnumRegistry × String) :=
  let canonical := pascalCase name
  let incoming := EnumDeclaration.distinct values
  match registry.find? canonical with
  | some existing =>
      if existing.values = incoming then
        .ok (registry, canonical)
      else
        let conflict : EnumConflict := ⟨canonical, existing.values, incoming⟩
        match registry.policy with
        | .error => .error (.conflictingEnum conflict)
        | .firstWins =>
            .ok ({ registry with conflicts := registry.conflicts ++ [conflict] }, canonical)
  | none =>
      match EnumDeclaration.clash? incoming with
      | some (first, second) => .error (.clashingMembers canonical first second)
      | none =>
          .ok ({ registry with entries := insert ⟨canonical, incoming⟩ registry.entries },
            canonical)

/-- The name that a successful registration answers is the canonical one. -/
theorem snd_of_register {registry after : EnumRegistry} {name canonical : String}
    {values : List String} (h : registry.register name values = .ok (after, canonical)) :
    canonical = pascalCase name := by
  simp only [register] at h
  repeat' split at h
  all_goals simp_all

end EnumRegistry

end TableModels
