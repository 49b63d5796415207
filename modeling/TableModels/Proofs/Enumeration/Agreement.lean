import TableModels.Proofs.Enumeration.Registration
import Mathlib.Data.List.Nodup

/-!
# Registrations that agree

When nothing is set aside, the entries of a registry are the definitions that were asked for and
nothing else, in increasing order of their names. Under the policy `error` registrations go through
exactly when the definitions agree: a name has one list of values, and no list has two values of one
member name. Neither says in which order the definitions were asked for, so the order does not
matter: `registerAll_error_of_perm`.
-/

namespace TableModels.EnumRegistry

/-- The entry that a registration asks for. -/
def definition (request : String × List String) : EnumDeclaration :=
  ⟨pascalCase request.1, EnumDeclaration.distinct request.2⟩

/-- The definitions can stand in one registry. -/
structure Agree (definitions : List EnumDeclaration) : Prop where
  clash : ∀ each ∈ definitions, EnumDeclaration.clash? each.values = none
  unique : ∀ each ∈ definitions, ∀ other ∈ definitions, each.name = other.name → each = other

/-- The entries stand in increasing order of their names, and no name is repeated. -/
def IsIncreasing (entries : List EnumDeclaration) : Prop :=
  entries.Pairwise fun first second => first.name < second.name

theorem Agree.of_subset {definitions others : List EnumDeclaration} (h : Agree definitions)
    (hsubset : ∀ each ∈ others, each ∈ definitions) : Agree others where
  clash := fun each heach => h.clash each (hsubset each heach)
  unique := fun each heach other hother =>
    h.unique each (hsubset each heach) other (hsubset other hother)

theorem agree_congr {definitions others : List EnumDeclaration}
    (h : ∀ each, each ∈ definitions ↔ each ∈ others) : Agree definitions ↔ Agree others := by
  constructor
  · intro hagree
    exact hagree.of_subset fun each heach => (h each).2 heach
  · intro hagree
    exact hagree.of_subset fun each heach => (h each).1 heach

/-! ### The order of the entries -/

theorem isIncreasing_insert {declaration : EnumDeclaration} {entries : List EnumDeclaration}
    (h : IsIncreasing entries) (hnew : declaration.name ∉ entries.map (·.name)) :
    IsIncreasing (insert declaration entries) := by
  induction entries with
  | nil => exact List.pairwise_singleton _ _
  | cons entry rest ih =>
      obtain ⟨hentry, hrest⟩ := List.pairwise_cons.1 h
      rw [List.map_cons, List.mem_cons, not_or] at hnew
      rw [insert]
      split
      · rename_i hlt
        apply List.pairwise_cons.2
        refine ⟨?_, h⟩
        intro other hother
        obtain rfl | hother := List.mem_cons.1 hother
        · exact hlt
        · exact String.lt_trans hlt (hentry other hother)
      · rename_i hnot
        apply List.pairwise_cons.2
        refine ⟨?_, ih hrest hnew.2⟩
        intro other hother
        obtain rfl | hother := mem_insert.1 hother
        · -- the names differ, so what is not smaller is larger
          apply Classical.byContradiction
          intro hlarger
          exact hnew.1 (String.le_antisymm (String.not_lt.1 hlarger) (String.not_lt.1 hnot))
        · exact hentry other hother

theorem Registers.isIncreasing {registry after : EnumRegistry} {canonical : String}
    {incoming : List String} (h : Registers registry canonical incoming after)
    (hentries : IsIncreasing registry.entries) : IsIncreasing after.entries := by
  cases h with
  | known _ _ => exact hentries
  | setAside _ _ _ => exact hentries
  | added hfind _ => exact isIncreasing_insert hentries (find?_eq_none_iff.1 hfind)

theorem registerAll_isIncreasing {registry last : EnumRegistry}
    {requests : List (String × List String)} (h : registry.registerAll requests = .ok last)
    (hentries : IsIncreasing registry.entries) : IsIncreasing last.entries := by
  induction requests generalizing registry with
  | nil =>
      cases h
      exact hentries
  | cons request rest ih =>
      obtain ⟨after, hstep, hrest⟩ := registerAll_cons_eq_ok_iff.1 h
      exact ih hrest (hstep.isIncreasing hentries)

/-- Entries in increasing order are told by their members. -/
theorem IsIncreasing.eq_of_mem_iff {entries others : List EnumDeclaration}
    (h : IsIncreasing entries) (hothers : IsIncreasing others)
    (hmem : ∀ each, each ∈ entries ↔ each ∈ others) : entries = others := by
  have hnodup : ∀ {list}, IsIncreasing list → list.Nodup := by
    intro list hlist
    apply List.Pairwise.imp _ hlist
    rintro first second hlt rfl
    exact String.lt_irrefl _ hlt
  apply List.Perm.eq_of_pairwise _ h hothers
  · exact (List.perm_ext_iff_of_nodup (hnodup h) (hnodup hothers)).2 hmem
  · intro first second _ _ hlt hgt
    exact absurd (String.lt_trans hlt hgt) (String.lt_irrefl _)

/-! ### The members of the entries -/

theorem find?_eq_some {registry : EnumRegistry} {canonical : String} {existing : EnumDeclaration}
    (h : registry.find? canonical = some existing) :
    existing ∈ registry.entries ∧ existing.name = canonical :=
  ⟨List.mem_of_find?_eq_some h, by simpa using List.find?_some h⟩

/-- A registration that sets nothing aside adds the definition that it asks for, unless it is
there. -/
theorem Registers.mem_entries {registry after : EnumRegistry} {canonical : String}
    {incoming : List String} (h : Registers registry canonical incoming after)
    (hconflicts : after.conflicts = registry.conflicts) (each : EnumDeclaration) :
    each ∈ after.entries ↔ each = ⟨canonical, incoming⟩ ∨ each ∈ registry.entries := by
  cases h with
  | known hfind hvalues =>
      obtain ⟨hmem, rfl⟩ := find?_eq_some hfind
      subst hvalues
      constructor
      · exact Or.inr
      · rintro (rfl | heach)
        · exact hmem
        · exact heach
  | setAside _ _ _ => simp at hconflicts
  | added _ _ => exact mem_insert

/-- Where nothing is set aside, the entries are those from before and the definitions that were
asked for. -/
theorem registerAll_mem_entries {registry last : EnumRegistry}
    {requests : List (String × List String)} (h : registry.registerAll requests = .ok last)
    (hconflicts : last.conflicts = registry.conflicts) (each : EnumDeclaration) :
    each ∈ last.entries ↔ each ∈ requests.map definition ∨ each ∈ registry.entries := by
  induction requests generalizing registry with
  | nil =>
      cases h
      simp
  | cons request rest ih =>
      obtain ⟨after, hstep, hrest⟩ := registerAll_cons_eq_ok_iff.1 h
      have hlater := registerAll_conflicts_prefix hrest
      rw [hconflicts] at hlater
      have hsame := hlater.eq_of_length_le hstep.conflicts_prefix.length_le
      rw [ih hrest (hconflicts.trans hsame.symm), hstep.mem_entries hsame, List.map_cons,
        List.mem_cons, definition, or_left_comm, or_assoc]

/-! ### The policy `error` -/

theorem Registers.conflicts_eq_of_error {registry after : EnumRegistry} {canonical : String}
    {incoming : List String} (h : Registers registry canonical incoming after)
    (hpolicy : registry.policy = .error) : after.conflicts = registry.conflicts := by
  cases h with
  | known _ _ => rfl
  | setAside _ _ hother =>
      rw [hpolicy] at hother
      cases hother
  | added _ _ => rfl

theorem registerAll_conflicts_of_error {registry last : EnumRegistry}
    {requests : List (String × List String)} (h : registry.registerAll requests = .ok last)
    (hpolicy : registry.policy = .error) :
    last.policy = .error ∧ last.conflicts = registry.conflicts := by
  induction requests generalizing registry with
  | nil =>
      cases h
      exact ⟨hpolicy, rfl⟩
  | cons request rest ih =>
      obtain ⟨after, hstep, hrest⟩ := registerAll_cons_eq_ok_iff.1 h
      obtain ⟨hlast, hconflicts⟩ := ih hrest (hstep.policy_eq.trans hpolicy)
      exact ⟨hlast, hconflicts.trans (hstep.conflicts_eq_of_error hpolicy)⟩

/-- A definition that agrees with the entries can be registered. -/
theorem exists_registers_of_agree {registry : EnumRegistry} {canonical : String}
    {incoming : List String} (h : Agree (⟨canonical, incoming⟩ :: registry.entries)) :
    ∃ after, Registers registry canonical incoming after := by
  cases hfind : registry.find? canonical with
  | none => exact ⟨_, .added hfind (h.clash _ List.mem_cons_self)⟩
  | some existing =>
      obtain ⟨hmem, hname⟩ := find?_eq_some hfind
      have hsame := h.unique existing (List.mem_cons_of_mem _ hmem) _ List.mem_cons_self hname
      exact ⟨registry, .known hfind (congrArg EnumDeclaration.values hsame)⟩

/-- A registration under `error` keeps the agreement of the entries with what is still to come. -/
theorem Registers.agree_iff {registry after : EnumRegistry} {canonical : String}
    {incoming : List String} (h : Registers registry canonical incoming after)
    (hpolicy : registry.policy = .error) (coming : List EnumDeclaration) :
    Agree (coming ++ after.entries) ↔
      Agree (⟨canonical, incoming⟩ :: coming ++ registry.entries) := by
  apply agree_congr
  intro each
  have hentries := h.mem_entries (h.conflicts_eq_of_error hpolicy) each
  rw [List.mem_append, hentries, List.cons_append, List.mem_cons, List.mem_append, or_left_comm]

theorem exists_registerAll_of_agree {registry : EnumRegistry}
    {requests : List (String × List String)} (hpolicy : registry.policy = .error)
    (h : Agree (requests.map definition ++ registry.entries)) :
    ∃ last, registry.registerAll requests = .ok last := by
  induction requests generalizing registry with
  | nil => exact ⟨registry, rfl⟩
  | cons request rest ih =>
      rw [List.map_cons] at h
      have hfirst : Agree (definition request :: registry.entries) := by
        apply h.of_subset
        intro each heach
        obtain rfl | hentry := List.mem_cons.1 heach
        · exact List.mem_append_left _ List.mem_cons_self
        · exact List.mem_append_right _ hentry
      obtain ⟨after, hstep⟩ := exists_registers_of_agree hfirst
      obtain ⟨last, hlast⟩ := ih (hstep.policy_eq.trans hpolicy) ((hstep.agree_iff hpolicy _).2 h)
      exact ⟨last, registerAll_cons_eq_ok_iff.2 ⟨after, hstep, hlast⟩⟩

theorem registerAll_clash {registry last : EnumRegistry} {requests : List (String × List String)}
    (h : registry.registerAll requests = .ok last)
    (hentries : ∀ each ∈ registry.entries, EnumDeclaration.clash? each.values = none) :
    ∀ each ∈ last.entries, EnumDeclaration.clash? each.values = none := by
  induction requests generalizing registry with
  | nil =>
      cases h
      exact hentries
  | cons request rest ih =>
      obtain ⟨after, hstep, hrest⟩ := registerAll_cons_eq_ok_iff.1 h
      apply ih hrest
      cases hstep with
      | known _ _ => exact hentries
      | setAside _ _ _ => exact hentries
      | added _ hclash =>
          intro each heach
          obtain rfl | hbefore := mem_insert.1 heach
          · exact hclash
          · exact hentries each hbefore

/-- The entries of a registry agree. -/
theorem agree_entries {policy : EnumConflictPolicy} {last : EnumRegistry}
    {requests : List (String × List String)} (h : (empty policy).registerAll requests = .ok last) :
    Agree last.entries where
  clash := registerAll_clash h fun _ heach => absurd heach List.not_mem_nil
  unique := fun _ heach _ hother hname =>
    List.inj_on_of_nodup_map (registerAll_nodup_names h List.nodup_nil) heach hother hname

/-- What registrations under `error` lead to, without the order in which they were made. -/
theorem registerAll_error_eq_ok_iff {last : EnumRegistry} {requests : List (String × List String)} :
    (empty .error).registerAll requests = .ok last ↔
      Agree (requests.map definition) ∧ IsIncreasing last.entries ∧
        (∀ each, each ∈ last.entries ↔ each ∈ requests.map definition) ∧
        last.policy = .error ∧ last.conflicts = [] := by
  have houtcome : ∀ {other}, (empty .error).registerAll requests = .ok other →
      IsIncreasing other.entries ∧
        (∀ each, each ∈ other.entries ↔ each ∈ requests.map definition) ∧
        other.policy = .error ∧ other.conflicts = [] := by
    intro other hother
    obtain ⟨hpolicy, hconflicts⟩ := registerAll_conflicts_of_error hother rfl
    refine ⟨registerAll_isIncreasing hother List.Pairwise.nil, ?_, hpolicy, hconflicts⟩
    intro each
    rw [registerAll_mem_entries hother hconflicts]
    exact or_iff_left List.not_mem_nil
  constructor
  · intro h
    obtain ⟨hincreasing, hmem, hrest⟩ := houtcome h
    have hagree := (agree_entries h).of_subset fun each heach => (hmem each).2 heach
    exact ⟨hagree, hincreasing, hmem, hrest⟩
  · rintro ⟨hagree, hincreasing, hmem, hpolicy, hconflicts⟩
    have hcoming : Agree (requests.map definition ++ (empty .error).entries) := by
      rwa [empty, List.append_nil]
    obtain ⟨other, hother⟩ := exists_registerAll_of_agree rfl hcoming
    obtain ⟨hotherIncreasing, hotherMem, hotherPolicy, hotherConflicts⟩ := houtcome hother
    have hentries : other.entries = last.entries :=
      hotherIncreasing.eq_of_mem_iff hincreasing fun each => (hotherMem each).trans (hmem each).symm
    have hsame : other = last := by
      cases other
      cases last
      simp_all
    rw [hother, hsame]

/-- The order of registrations under `error` does not matter. -/
theorem registerAll_error_of_perm {last : EnumRegistry}
    {requests others : List (String × List String)} (h : requests.Perm others) :
    (empty .error).registerAll requests = .ok last ↔
      (empty .error).registerAll others = .ok last := by
  have hmem : ∀ each, each ∈ requests.map definition ↔ each ∈ others.map definition :=
    fun _ => (h.map definition).mem_iff
  have hagree : Agree (requests.map definition) ↔ Agree (others.map definition) := agree_congr hmem
  rw [registerAll_error_eq_ok_iff, registerAll_error_eq_ok_iff, hagree]
  simp only [hmem]

end TableModels.EnumRegistry
