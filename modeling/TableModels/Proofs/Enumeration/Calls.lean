import TableModels.Proofs.Enumeration.Agreement

/-!
# Calls of a registry that is at hand

While a run goes on there is one registry, and each registration changes it in place. A registration
that fails is answered by its error, and the next one is made on what the registry has become by
then. `call` is such a registration, one effect after the other; `run_call` says that it answers
what `register` answers and that one that fails has changed nothing. `afterCalls` is the registry
after calls in order, whatever came of each.

## Implementation notes

`IsWellKept` is what every call keeps. It holds at the beginning, so it holds after every list of
calls: `isWellKept_afterCalls`. What a list of calls sets aside is told by `divergences`, from the
entries alone and without a look at the conflicts.
-/

namespace TableModels.EnumDeclaration

theorem clashAfter?_eq_none_iff {seen values : List String} :
    clashAfter? seen values = none ↔
      (values.map memberName).Nodup ∧ ∀ value ∈ values, memberName value ∉ seen.map memberName := by
  induction values generalizing seen with
  | nil => simp [clashAfter?]
  | cons value rest ih =>
      have hfind : seen.find? (fun earlier => memberName earlier == memberName value) = none ↔
          memberName value ∉ seen.map memberName := by
        rw [List.find?_eq_none]
        simp
      have hstep : clashAfter? seen (value :: rest) = none ↔
          memberName value ∉ seen.map memberName ∧ clashAfter? (seen ++ [value]) rest = none := by
        rw [clashAfter?, ← hfind]
        cases seen.find? (fun earlier => memberName earlier == memberName value) <;> simp
      rw [hstep, ih]
      simp only [List.map_cons, List.nodup_cons, List.map_append, List.map_nil, List.mem_append,
        List.mem_singleton, List.forall_mem_cons, not_or]
      constructor
      · rintro ⟨hvalue, hrest, hnew⟩
        refine ⟨⟨?_, hrest⟩, hvalue, fun other hother => (hnew other hother).1⟩
        intro hmem
        obtain ⟨other, hother, heq⟩ := List.mem_map.1 hmem
        exact (hnew other hother).2 heq
      · rintro ⟨⟨hfirst, hrest⟩, hvalue, hnew⟩
        refine ⟨hvalue, hrest, fun other hother => ⟨hnew other hother, ?_⟩⟩
        intro heq
        exact hfirst (List.mem_map.2 ⟨other, hother, heq⟩)

/-- Values do not clash when their member names are distinct. -/
theorem clash?_eq_none_iff {values : List String} :
    clash? values = none ↔ (values.map memberName).Nodup := by
  rw [clash?, clashAfter?_eq_none_iff]
  simp

end TableModels.EnumDeclaration

namespace TableModels.EnumRegistry

/-- Register values under the Pascal-case form of a name in the registry at hand, which stays as it
has become when the registration fails. -/
def call (request : String × List String) : ExceptT ModelError (StateM EnumRegistry) String := do
  let canonical := pascalCase request.1
  let incoming := EnumDeclaration.distinct request.2
  match (← get).find? canonical with
  | some existing =>
      if existing.values ≠ incoming then
        let conflict : EnumConflict := ⟨canonical, existing.values, incoming⟩
        match (← get).policy with
        | .error => throw (.conflictingEnum conflict)
        | .firstWins => modify fun kept => { kept with conflicts := kept.conflicts ++ [conflict] }
  | none =>
      match EnumDeclaration.clash? incoming with
      | some (first, second) => throw (.clashingMembers canonical first second)
      | none =>
          modify fun kept => { kept with entries := insert ⟨canonical, incoming⟩ kept.entries }
  return canonical

/-- What a call answers. -/
def answer (registry : EnumRegistry) (request : String × List String) : Except ModelError String :=
  ((call request).run.run registry).1

/-- The registry behind a call. -/
def afterCall (registry : EnumRegistry) (request : String × List String) : EnumRegistry :=
  ((call request).run.run registry).2

/-- The registry behind calls in order; one that fails does not stop those behind it. -/
def afterCalls (registry : EnumRegistry) (requests : List (String × List String)) : EnumRegistry :=
  requests.foldl afterCall registry

/-- What the call would set aside: its values, when others are kept under its name. -/
def divergence? (registry : EnumRegistry) (request : String × List String) : Option EnumConflict :=
  let canonical := pascalCase request.1
  let incoming := EnumDeclaration.distinct request.2
  match registry.find? canonical with
  | none => none
  | some kept =>
      if kept.values = incoming then none else some ⟨canonical, kept.values, incoming⟩

/-- What calls in order would set aside, each by the entries that are there when it is made. -/
def divergences (registry : EnumRegistry) : List (String × List String) → List EnumConflict
  | [] => []
  | request :: rest =>
      (registry.divergence? request).toList ++ (registry.afterCall request).divergences rest

/-- The registry is in order: it is ordered by its names, an entry is found under its own name and
under no other, and the values of an entry have distinct member names. -/
structure IsWellKept (registry : EnumRegistry) : Prop where
  increasing : IsIncreasing registry.entries
  found : ∀ canonical entry, registry.find? canonical = some entry ↔
    entry ∈ registry.entries ∧ entry.name = canonical
  values : ∀ entry ∈ registry.entries, entry.values.Nodup
  members : ∀ entry ∈ registry.entries, (entry.values.map memberName).Nodup

/-- The second registry has what the first one has, unchanged. -/
def Keeps (after before : EnumRegistry) : Prop :=
  ∀ canonical entry, before.find? canonical = some entry → after.find? canonical = some entry

/-! ### One call -/

/-- A call that asks for the registry gets the one at hand. -/
theorem run_get_bind {α : Type} (next : EnumRegistry → ExceptT ModelError (StateM EnumRegistry) α)
    (registry : EnumRegistry) :
    (get >>= next).run.run registry = (next registry).run.run registry := rfl

/-- A call answers what the registration answers. One that fails changes nothing. -/
theorem run_call (registry : EnumRegistry) (request : String × List String) :
    (call request).run.run registry =
      match registry.register request.1 request.2 with
      | .ok (after, canonical) => (.ok canonical, after)
      | .error error => (.error error, registry) := by
  simp only [call, register, run_get_bind]
  cases registry.find? (pascalCase request.1) with
  | none => cases EnumDeclaration.clash? (EnumDeclaration.distinct request.2) <;> rfl
  | some existing =>
      by_cases hvalues : existing.values = EnumDeclaration.distinct request.2
      · simp only [hvalues, ne_eq, not_true_eq_false, ↓reduceIte]
        rfl
      · simp only [hvalues, ne_eq, not_false_eq_true, ↓reduceIte, run_get_bind]
        obtain ⟨policy, entries, conflicts⟩ := registry
        cases policy <;> rfl

/-- A call that fails leaves the registry as it is. -/
theorem afterCall_of_answer_error {registry : EnumRegistry} {request : String × List String}
    {error : ModelError} (h : registry.answer request = .error error) :
    registry.afterCall request = registry := by
  rw [answer, run_call] at h
  rw [afterCall, run_call]
  split at h
  · cases h
  · rfl

/-- A call does what a registration can do, or it changes nothing. -/
theorem registers_or_eq_afterCall (registry : EnumRegistry) (request : String × List String) :
    Registers registry (pascalCase request.1) (EnumDeclaration.distinct request.2)
        (registry.afterCall request) ∨ registry.afterCall request = registry := by
  rw [afterCall, run_call]
  split
  · rename_i hregister
    exact Or.inl (register_eq_ok_iff.1 hregister).2
  · exact Or.inr rfl

/-! ### What every call keeps -/

theorem IsIncreasing.eq_of_name_eq {entries : List EnumDeclaration} (h : IsIncreasing entries)
    {entry other : EnumDeclaration} (hentry : entry ∈ entries) (hother : other ∈ entries)
    (hname : entry.name = other.name) : entry = other := by
  have hnodup : (entries.map (·.name)).Nodup := by
    apply List.Pairwise.map _ _ h
    intro first second hlt heq
    exact String.lt_irrefl _ (heq ▸ hlt)
  exact List.inj_on_of_nodup_map hnodup hentry hother hname

/-- In increasing order an entry is found under its own name and under no other. -/
theorem find?_eq_some_iff {registry : EnumRegistry} (h : IsIncreasing registry.entries)
    {canonical : String} {entry : EnumDeclaration} :
    registry.find? canonical = some entry ↔ entry ∈ registry.entries ∧ entry.name = canonical := by
  constructor
  · exact find?_eq_some
  · rintro ⟨hmem, rfl⟩
    cases hfind : registry.find? entry.name with
    | none => exact absurd (List.mem_map_of_mem hmem) (find?_eq_none_iff.1 hfind)
    | some other =>
        obtain ⟨hother, hname⟩ := find?_eq_some hfind
        rw [h.eq_of_name_eq hother hmem hname]

theorem Registers.keeps {registry after : EnumRegistry} {canonical : String}
    {incoming : List String} (h : Registers registry canonical incoming after)
    (hentries : IsIncreasing registry.entries) : after.Keeps registry := by
  intro name entry hfind
  rw [find?_eq_some_iff hentries] at hfind
  rw [find?_eq_some_iff (h.isIncreasing hentries)]
  refine ⟨?_, hfind.2⟩
  cases h with
  | known _ _ => exact hfind.1
  | setAside _ _ _ => exact hfind.1
  | added _ _ => exact mem_insert.2 (Or.inr hfind.1)

theorem Registers.isWellKept {registry after : EnumRegistry} {name : String} {values : List String}
    (h : Registers registry (pascalCase name) (EnumDeclaration.distinct values) after)
    (hkept : registry.IsWellKept) : after.IsWellKept := by
  have hincreasing := h.isIncreasing hkept.increasing
  have hnew : ∀ entry ∈ after.entries, entry ∈ registry.entries ∨
      entry.values = EnumDeclaration.distinct values ∧
        EnumDeclaration.clash? (EnumDeclaration.distinct values) = none := by
    cases h with
    | known _ _ => exact fun entry => Or.inl
    | setAside _ _ _ => exact fun entry => Or.inl
    | added _ hclash =>
        intro entry hentry
        obtain rfl | hbefore := mem_insert.1 hentry
        · exact Or.inr ⟨rfl, hclash⟩
        · exact Or.inl hbefore
  refine ⟨hincreasing, fun _ _ => find?_eq_some_iff hincreasing, ?_, ?_⟩
  · intro entry hentry
    obtain hbefore | ⟨hvalues, -⟩ := hnew entry hentry
    · exact hkept.values entry hbefore
    · rw [hvalues]
      exact EnumDeclaration.nodup_distinct values
  · intro entry hentry
    obtain hbefore | ⟨hvalues, hclash⟩ := hnew entry hentry
    · exact hkept.members entry hbefore
    · rw [hvalues]
      exact EnumDeclaration.clash?_eq_none_iff.1 hclash

theorem isWellKept_empty (policy : EnumConflictPolicy) : (empty policy).IsWellKept where
  increasing := List.Pairwise.nil
  found := fun _ _ => by simp [empty, find?]
  values := fun _ hentry => absurd hentry List.not_mem_nil
  members := fun _ hentry => absurd hentry List.not_mem_nil

theorem IsWellKept.afterCall {registry : EnumRegistry} (h : registry.IsWellKept)
    (request : String × List String) : (registry.afterCall request).IsWellKept := by
  obtain hstep | hsame := registers_or_eq_afterCall registry request
  · exact hstep.isWellKept h
  · rwa [hsame]

/-- A call never changes an entry that is there. -/
theorem IsWellKept.keeps_afterCall {registry : EnumRegistry} (h : registry.IsWellKept)
    (request : String × List String) : (registry.afterCall request).Keeps registry := by
  obtain hstep | hsame := registers_or_eq_afterCall registry request
  · exact hstep.keeps h.increasing
  · rw [hsame]
    exact fun _ _ => id

theorem policy_afterCall (registry : EnumRegistry) (request : String × List String) :
    (registry.afterCall request).policy = registry.policy := by
  obtain hstep | hsame := registers_or_eq_afterCall registry request
  · exact hstep.policy_eq
  · rw [hsame]

/-! ### What a call sets aside -/

theorem conflicts_afterCall_of_error {registry : EnumRegistry} (hpolicy : registry.policy = .error)
    (request : String × List String) :
    (registry.afterCall request).conflicts = registry.conflicts := by
  obtain hstep | hsame := registers_or_eq_afterCall registry request
  · exact hstep.conflicts_eq_of_error hpolicy
  · rw [hsame]

/-- Under `firstWins` a call sets aside the values that differ from the kept ones. -/
theorem conflicts_afterCall {registry : EnumRegistry} (hpolicy : registry.policy = .firstWins)
    (request : String × List String) :
    (registry.afterCall request).conflicts =
      registry.conflicts ++ (registry.divergence? request).toList := by
  simp only [afterCall, run_call, register, divergence?]
  cases registry.find? (pascalCase request.1) with
  | none => cases EnumDeclaration.clash? (EnumDeclaration.distinct request.2) <;> simp
  | some kept =>
      by_cases hvalues : kept.values = EnumDeclaration.distinct request.2 <;>
        simp [hvalues, hpolicy]

/-! ### Runs -/

theorem isWellKept_afterCalls {registry : EnumRegistry} (h : registry.IsWellKept)
    (requests : List (String × List String)) : (registry.afterCalls requests).IsWellKept := by
  induction requests generalizing registry with
  | nil => exact h
  | cons request rest ih => exact ih (h.afterCall request)

theorem conflicts_afterCalls_of_error {registry : EnumRegistry}
    (hpolicy : registry.policy = .error) (requests : List (String × List String)) :
    (registry.afterCalls requests).conflicts = registry.conflicts := by
  induction requests generalizing registry with
  | nil => rfl
  | cons request rest ih =>
      have hrest := ih ((policy_afterCall registry request).trans hpolicy)
      exact hrest.trans (conflicts_afterCall_of_error hpolicy request)

theorem conflicts_afterCalls {registry : EnumRegistry} (hpolicy : registry.policy = .firstWins)
    (requests : List (String × List String)) :
    (registry.afterCalls requests).conflicts =
      registry.conflicts ++ registry.divergences requests := by
  induction requests generalizing registry with
  | nil => exact (List.append_nil _).symm
  | cons request rest ih =>
      have hrest := ih ((policy_afterCall registry request).trans hpolicy)
      rw [conflicts_afterCall hpolicy request, List.append_assoc] at hrest
      exact hrest

theorem afterCalls_concat (registry : EnumRegistry) (requests : List (String × List String))
    (request : String × List String) :
    registry.afterCalls (requests ++ [request]) =
      (registry.afterCalls requests).afterCall request :=
  List.foldl_concat ..

/-- After any calls, whether they failed or not, the registry is in order. One call more keeps every
entry as it is, and one that fails keeps everything. Nothing is set aside under `error`, and under
`firstWins` it is, call by call, what differs from the values that are kept. -/
theorem registry_kept_by_calls (policy : EnumConflictPolicy)
    (requests : List (String × List String)) :
    ((empty policy).afterCalls requests).IsWellKept ∧
      (∀ request, ((empty policy).afterCalls (requests ++ [request])).Keeps
        ((empty policy).afterCalls requests)) ∧
      (∀ request error, ((empty policy).afterCalls requests).answer request = .error error →
        (empty policy).afterCalls (requests ++ [request]) = (empty policy).afterCalls requests) ∧
      ((empty policy).afterCalls requests).conflicts =
        match policy with
        | .error => []
        | .firstWins => (empty .firstWins).divergences requests := by
  have hkept := isWellKept_afterCalls (isWellKept_empty policy) requests
  refine ⟨hkept, ?_, ?_, ?_⟩
  · intro request
    rw [afterCalls_concat]
    exact hkept.keeps_afterCall request
  · intro request error hanswer
    rw [afterCalls_concat]
    exact afterCall_of_answer_error hanswer
  · cases policy with
    | error => exact conflicts_afterCalls_of_error rfl requests
    | firstWins => exact conflicts_afterCalls rfl requests

end TableModels.EnumRegistry
