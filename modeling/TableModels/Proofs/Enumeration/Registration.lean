import TableModels.Enumeration.Registry

/-!
# Registering enumerations one after the other

What one registration can do is said once, by `Registers`: the values are there already, or a
conflict is set aside, or an entry is added. What holds of a list of registrations follows by
induction on the list. Two registries that differ in their policy go the same way until the first
conflict, and a run under `firstWins` that has set nothing aside is a run under `error`.
-/

namespace TableModels.EnumRegistry

/-- What a registration of distinct values under a canonical name can do to a registry. -/
inductive Registers (registry : EnumRegistry) (canonical : String) (incoming : List String) :
    EnumRegistry → Prop
  | known {existing : EnumDeclaration} (hfind : registry.find? canonical = some existing)
      (hvalues : existing.values = incoming) : Registers registry canonical incoming registry
  | setAside {existing : EnumDeclaration} (hfind : registry.find? canonical = some existing)
      (hvalues : existing.values ≠ incoming) (hpolicy : registry.policy = .firstWins) :
      Registers registry canonical incoming
        { registry with
          conflicts := registry.conflicts ++ [⟨canonical, existing.values, incoming⟩] }
  | added (hfind : registry.find? canonical = none)
      (hclash : EnumDeclaration.clash? incoming = none) :
      Registers registry canonical incoming
        { registry with entries := insert ⟨canonical, incoming⟩ registry.entries }

/-- Register names with their values in order. -/
def registerAll (registry : EnumRegistry) :
    List (String × List String) → Except ModelError EnumRegistry
  | [] => .ok registry
  | (name, values) :: rest =>
      match registry.register name values with
      | .error error => .error error
      | .ok (after, _) => after.registerAll rest

/-- The registry under another policy. -/
def withPolicy (registry : EnumRegistry) (policy : EnumConflictPolicy) : EnumRegistry :=
  { registry with policy }

/-- The canonical names of the entries, in order. -/
def names (registry : EnumRegistry) : List String :=
  registry.entries.map (·.name)

@[simp] theorem withPolicy_conflicts (registry : EnumRegistry) (policy : EnumConflictPolicy) :
    (registry.withPolicy policy).conflicts = registry.conflicts := rfl

theorem withPolicy_of_policy_eq {registry : EnumRegistry} {policy : EnumConflictPolicy}
    (h : registry.policy = policy) : registry.withPolicy policy = registry := by
  subst h
  rfl

/-! ### One registration -/

theorem register_eq_ok_iff {registry after : EnumRegistry} {name canonical : String}
    {values : List String} :
    registry.register name values = .ok (after, canonical) ↔
      canonical = pascalCase name ∧
        Registers registry (pascalCase name) (EnumDeclaration.distinct values) after := by
  constructor
  · intro h
    refine ⟨snd_of_register h, ?_⟩
    simp only [register] at h
    split at h
    · rename_i existing hfind
      split at h
      · rename_i hvalues
        cases h
        exact .known hfind hvalues
      · rename_i hvalues
        split at h
        · cases h
        · rename_i hpolicy
          cases h
          exact .setAside hfind hvalues hpolicy
    · rename_i hfind
      split at h
      · cases h
      · rename_i hclash
        cases h
        exact .added hfind hclash
  · rintro ⟨rfl, hstep⟩
    cases hstep with
    | known hfind hvalues => simp [register, hfind, hvalues]
    | setAside hfind hvalues hpolicy => simp [register, hfind, hvalues, hpolicy]
    | added hfind hclash => simp [register, hfind, hclash]

theorem registerAll_cons_eq_ok_iff {registry last : EnumRegistry} {name : String}
    {values : List String} {rest : List (String × List String)} :
    registry.registerAll ((name, values) :: rest) = .ok last ↔
      ∃ after, Registers registry (pascalCase name) (EnumDeclaration.distinct values) after ∧
        after.registerAll rest = .ok last := by
  rw [registerAll]
  constructor
  · intro h
    split at h
    · cases h
    · rename_i after canonical hregister
      exact ⟨after, (register_eq_ok_iff.1 hregister).2, h⟩
  · rintro ⟨after, hstep, hrest⟩
    rw [register_eq_ok_iff.2 ⟨rfl, hstep⟩]
    exact hrest

theorem registerAll_append (registry : EnumRegistry) (first second : List (String × List String)) :
    registry.registerAll (first ++ second) =
      (registry.registerAll first).bind fun middle => middle.registerAll second := by
  induction first generalizing registry with
  | nil => rfl
  | cons request rest ih =>
      rw [List.cons_append, registerAll, registerAll]
      cases registry.register request.1 request.2 with
      | error error => rfl
      | ok answer => exact ih answer.1

/-! ### Two policies -/

/-- Conflicts are set aside behind those that were set aside before. -/
theorem Registers.conflicts_prefix {registry after : EnumRegistry} {canonical : String}
    {incoming : List String} (h : Registers registry canonical incoming after) :
    registry.conflicts <+: after.conflicts := by
  cases h with
  | known _ _ => exact List.prefix_refl _
  | setAside _ _ _ => exact List.prefix_append _ _
  | added _ _ => exact List.prefix_refl _

theorem registerAll_conflicts_prefix {registry last : EnumRegistry}
    {requests : List (String × List String)} (h : registry.registerAll requests = .ok last) :
    registry.conflicts <+: last.conflicts := by
  induction requests generalizing registry with
  | nil =>
      cases h
      exact List.prefix_refl _
  | cons request rest ih =>
      obtain ⟨after, hstep, hrest⟩ := registerAll_cons_eq_ok_iff.1 h
      exact hstep.conflicts_prefix.trans (ih hrest)

/-- One registration goes through under `error` exactly when it sets nothing aside under
`firstWins`. -/
theorem registers_error_iff {registry after : EnumRegistry} {canonical : String}
    {incoming : List String} :
    Registers (registry.withPolicy .error) canonical incoming after ↔
      ∃ other, Registers (registry.withPolicy .firstWins) canonical incoming other ∧
        other.conflicts = registry.conflicts ∧ after = other.withPolicy .error := by
  constructor
  · intro h
    cases h with
    | known hfind hvalues => exact ⟨_, .known hfind hvalues, rfl, rfl⟩
    | setAside _ _ hpolicy => cases hpolicy
    | added hfind hclash => exact ⟨_, .added hfind hclash, rfl, rfl⟩
  · rintro ⟨other, hstep, hconflicts, rfl⟩
    cases hstep with
    | known hfind hvalues => exact .known hfind hvalues
    | setAside _ _ _ => simp at hconflicts
    | added hfind hclash => exact .added hfind hclash

theorem Registers.policy_eq {registry after : EnumRegistry} {canonical : String}
    {incoming : List String} (h : Registers registry canonical incoming after) :
    after.policy = registry.policy := by
  cases h <;> rfl

/-- Registrations go through under `error` exactly when they set nothing aside under `firstWins`,
and then they lead to the same entries. -/
theorem registerAll_error_iff {registry last : EnumRegistry}
    {requests : List (String × List String)} :
    (registry.withPolicy .error).registerAll requests = .ok last ↔
      ∃ other, (registry.withPolicy .firstWins).registerAll requests = .ok other ∧
        other.conflicts = registry.conflicts ∧ last = other.withPolicy .error := by
  induction requests generalizing registry with
  | nil =>
      simp only [registerAll, Except.ok.injEq]
      constructor
      · rintro rfl
        exact ⟨_, rfl, rfl, rfl⟩
      · rintro ⟨other, rfl, -, rfl⟩
        rfl
  | cons request rest ih =>
      constructor
      · intro h
        obtain ⟨after, hstep, hrest⟩ := registerAll_cons_eq_ok_iff.1 h
        obtain ⟨middle, hmiddle, hconflicts, rfl⟩ := registers_error_iff.1 hstep
        obtain ⟨other, hother, hsame, hlast⟩ := ih.1 hrest
        have hpolicy : middle.policy = .firstWins := hmiddle.policy_eq
        rw [withPolicy_of_policy_eq hpolicy] at hother
        refine ⟨other, ?_, hsame.trans hconflicts, hlast⟩
        apply registerAll_cons_eq_ok_iff.2
        exact ⟨middle, hmiddle, hother⟩
      · rintro ⟨other, h, hconflicts, rfl⟩
        obtain ⟨middle, hmiddle, hother⟩ := registerAll_cons_eq_ok_iff.1 h
        -- the conflicts only grow, and they end where they began
        have hfirst : registry.conflicts <+: middle.conflicts := hmiddle.conflicts_prefix
        have hrest := registerAll_conflicts_prefix hother
        rw [hconflicts] at hrest
        have hsame := hrest.eq_of_length_le hfirst.length_le
        have hpolicy : middle.policy = .firstWins := hmiddle.policy_eq
        rw [← withPolicy_of_policy_eq hpolicy] at hother
        have hstep := registers_error_iff.2 ⟨middle, hmiddle, hsame, rfl⟩
        have hlast := ih.2 ⟨other, hother, hconflicts.trans hsame.symm, rfl⟩
        apply registerAll_cons_eq_ok_iff.2
        exact ⟨_, hstep, hlast⟩

theorem registerAll_empty_error_iff {last : EnumRegistry} {requests : List (String × List String)} :
    (empty .error).registerAll requests = .ok last ↔
      ∃ other, (empty .firstWins).registerAll requests = .ok other ∧ other.conflicts = [] ∧
        last = other.withPolicy .error := by
  have hpolicies : ((empty .firstWins).withPolicy .error).registerAll requests = .ok last ↔ _ :=
    registerAll_error_iff
  exact hpolicies

/-! ### The names in a registry -/

theorem find?_eq_none_iff {registry : EnumRegistry} {canonical : String} :
    registry.find? canonical = none ↔ canonical ∉ registry.names := by
  rw [find?, List.find?_eq_none]
  simp [names]

theorem insert_perm (declaration : EnumDeclaration) (entries : List EnumDeclaration) :
    (insert declaration entries).Perm (declaration :: entries) := by
  induction entries with
  | nil => exact List.Perm.refl _
  | cons entry rest ih =>
      rw [insert]
      split
      · exact List.Perm.refl _
      · exact (ih.cons entry).trans (List.Perm.swap declaration entry rest)

/-- A registration adds its canonical name to the names, unless it is there. -/
theorem Registers.mem_names {registry after : EnumRegistry} {canonical : String}
    {incoming : List String} (h : Registers registry canonical incoming after) (name : String) :
    name ∈ after.names ↔ name = canonical ∨ name ∈ registry.names := by
  have hthere : ∀ {existing}, registry.find? canonical = some existing →
      (name ∈ registry.names ↔ name = canonical ∨ name ∈ registry.names) := by
    intro existing hfind
    have hmem : canonical ∈ registry.names := by
      apply Classical.byContradiction
      intro hnot
      rw [find?_eq_none_iff.2 hnot] at hfind
      cases hfind
    constructor
    · exact Or.inr
    · rintro (rfl | hname)
      · exact hmem
      · exact hname
  cases h with
  | known hfind _ => exact hthere hfind
  | setAside hfind _ _ => exact hthere hfind
  | added _ _ =>
      rw [names, ((insert_perm _ _).map _).mem_iff, List.map_cons, List.mem_cons]
      rfl

/-- No name is registered twice. -/
theorem Registers.nodup_names {registry after : EnumRegistry} {canonical : String}
    {incoming : List String} (h : Registers registry canonical incoming after)
    (hnodup : registry.names.Nodup) : after.names.Nodup := by
  cases h with
  | known _ _ => exact hnodup
  | setAside _ _ _ => exact hnodup
  | added hfind _ =>
      rw [names, ((insert_perm _ _).map _).nodup_iff, List.map_cons, List.nodup_cons]
      exact ⟨find?_eq_none_iff.1 hfind, hnodup⟩

theorem registerAll_mem_names {registry last : EnumRegistry}
    {requests : List (String × List String)} (h : registry.registerAll requests = .ok last)
    (name : String) :
    name ∈ last.names ↔
      (∃ request ∈ requests, name = pascalCase request.1) ∨ name ∈ registry.names := by
  induction requests generalizing registry with
  | nil =>
      cases h
      simp
  | cons request rest ih =>
      obtain ⟨after, hstep, hrest⟩ := registerAll_cons_eq_ok_iff.1 h
      rw [ih hrest, hstep.mem_names]
      simp only [List.mem_cons, exists_eq_or_imp]
      constructor
      · rintro (hlater | hname | hbefore)
        · exact Or.inl (Or.inr hlater)
        · exact Or.inl (Or.inl hname)
        · exact Or.inr hbefore
      · rintro ((hname | hlater) | hbefore)
        · exact Or.inr (Or.inl hname)
        · exact Or.inl hlater
        · exact Or.inr (Or.inr hbefore)

theorem registerAll_nodup_names {registry last : EnumRegistry}
    {requests : List (String × List String)} (h : registry.registerAll requests = .ok last)
    (hnodup : registry.names.Nodup) : last.names.Nodup := by
  induction requests generalizing registry with
  | nil =>
      cases h
      exact hnodup
  | cons request rest ih =>
      obtain ⟨after, hstep, hrest⟩ := registerAll_cons_eq_ok_iff.1 h
      exact ih hrest (hstep.nodup_names hnodup)

end TableModels.EnumRegistry
