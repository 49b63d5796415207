import Mathlib.Data.List.Nodup
import TableModels.Model.AuditFields

/-!
# Injecting fields one at a time

A field is added to a list of fields unless one of its name is there. Adding the fields of another
list one after the other tests each of them against a list that grows, and what one such step keeps
every run of them keeps: the fields that were there at the beginning, and the distinctness of names.
The injection of audit fields is a run of this kind, although it tests against the given fields
only, because the names of the audit fields are distinct.
-/

namespace TableModels

variable {fields added : List MappedField} {field : MappedField}

/-- The names of the fields, in order. -/
def namesOf (fields : List MappedField) : List String :=
  fields.map (·.name)

/-- The fields with one more behind them, unless one of its name is among them. -/
def addMissing (fields : List MappedField) (field : MappedField) : List MappedField :=
  if field.name ∈ namesOf fields then fields else fields ++ [field]

/-- The fields after each of the others has been added where its name is missing. -/
def addAllMissing (fields added : List MappedField) : List MappedField :=
  added.foldl addMissing fields

theorem name_mem_namesOf (h : field ∈ fields) : field.name ∈ namesOf fields :=
  List.mem_map_of_mem h

theorem namesOf_append (fields added : List MappedField) :
    namesOf (fields ++ added) = namesOf fields ++ namesOf added :=
  List.map_append

/-! ### One step -/

theorem addMissing_of_mem (h : field.name ∈ namesOf fields) : addMissing fields field = fields :=
  if_pos h

theorem addMissing_of_notMem (h : field.name ∉ namesOf fields) :
    addMissing fields field = fields ++ [field] :=
  if_neg h

theorem mem_namesOf_addMissing {name : String} :
    name ∈ namesOf (addMissing fields field) ↔ name ∈ namesOf fields ∨ name = field.name := by
  by_cases h : field.name ∈ namesOf fields
  · rw [addMissing_of_mem h]
    constructor
    · exact Or.inl
    · rintro (hname | rfl)
      · exact hname
      · exact h
  · rw [addMissing_of_notMem h, namesOf_append, List.mem_append]
    exact or_congr_right List.mem_singleton

theorem nodup_namesOf_addMissing :
    (namesOf (addMissing fields field)).Nodup ↔ (namesOf fields).Nodup := by
  by_cases h : field.name ∈ namesOf fields
  · rw [addMissing_of_mem h]
  · rw [addMissing_of_notMem h, namesOf_append]
    exact List.nodup_append_comm.trans (List.nodup_cons.trans (and_iff_right h))

/-! ### A run of steps -/

theorem mem_namesOf_addAllMissing {name : String} :
    name ∈ namesOf (addAllMissing fields added) ↔
      name ∈ namesOf fields ∨ name ∈ namesOf added := by
  induction added generalizing fields with
  | nil => exact (or_iff_left List.not_mem_nil).symm
  | cons field rest ih =>
      calc
        name ∈ namesOf (addAllMissing (addMissing fields field) rest) ↔
            name ∈ namesOf (addMissing fields field) ∨ name ∈ namesOf rest := ih
        _ ↔ (name ∈ namesOf fields ∨ name = field.name) ∨ name ∈ namesOf rest :=
            or_congr_left mem_namesOf_addMissing
        _ ↔ name ∈ namesOf fields ∨ name ∈ namesOf (field :: rest) := by
            rw [or_assoc]
            exact or_congr_right List.mem_cons.symm

theorem nodup_namesOf_addAllMissing :
    (namesOf (addAllMissing fields added)).Nodup ↔ (namesOf fields).Nodup := by
  induction added generalizing fields with
  | nil => rfl
  | cons field rest ih => exact ih.trans nodup_namesOf_addMissing

/-- Where every name is there already, nothing is added. -/
theorem addAllMissing_of_forall_mem (h : ∀ field ∈ added, field.name ∈ namesOf fields) :
    addAllMissing fields added = fields := by
  induction added with
  | nil => rfl
  | cons field rest ih =>
      rw [List.forall_mem_cons] at h
      rw [addAllMissing, List.foldl_cons, addMissing_of_mem h.1]
      exact ih h.2

theorem addAllMissing_addAllMissing (fields added : List MappedField) :
    addAllMissing (addAllMissing fields added) added = addAllMissing fields added := by
  apply addAllMissing_of_forall_mem
  intro field hfield
  exact mem_namesOf_addAllMissing.mpr (Or.inr (name_mem_namesOf hfield))

/-- Fields of distinct names do not stand in each other's way: a run adds those whose names are
missing at its beginning. -/
theorem addAllMissing_eq (h : (namesOf added).Nodup) :
    addAllMissing fields added =
      fields ++ added.filter fun field => field.name ∉ namesOf fields := by
  induction added generalizing fields with
  | nil => exact (List.append_nil _).symm
  | cons field rest ih =>
      obtain ⟨hfield, hrest⟩ : field.name ∉ namesOf rest ∧ (namesOf rest).Nodup :=
        List.nodup_cons.mp h
      rw [addAllMissing, List.foldl_cons, ← addAllMissing, ih hrest]
      by_cases hmem : field.name ∈ namesOf fields
      · rw [addMissing_of_mem hmem, List.filter_cons_of_neg (by simpa using hmem)]
      · rw [addMissing_of_notMem hmem, List.filter_cons_of_pos (by simpa using hmem),
          List.append_assoc, List.singleton_append]
        congr 2
        apply List.filter_congr
        intro other hother
        have hne : other.name ∉ namesOf [field] := by
          intro hname
          apply hfield
          have hsame : other.name = field.name := List.mem_singleton.mp hname
          exact hsame ▸ name_mem_namesOf hother
        rw [namesOf_append, decide_eq_decide, List.mem_append, not_or]
        exact and_iff_left hne

/-! ### Audit fields -/

theorem injectAuditFields_eq_addAllMissing (fields : List MappedField) :
    injectAuditFields fields = addAllMissing fields auditFields := by
  have hnodup : (namesOf auditFields).Nodup := by decide
  rw [injectAuditFields_eq, addAllMissing_eq hnodup]
  rfl

theorem nodup_namesOf_injectAuditFields :
    (namesOf (injectAuditFields fields)).Nodup ↔ (namesOf fields).Nodup := by
  rw [injectAuditFields_eq_addAllMissing]
  exact nodup_namesOf_addAllMissing

/-- The names and the definitions of the audit fields, in the order of injection. -/
def auditDefinitions : List (String × String) := [
  ("createdAt", "DateTime @default(now())"),
  ("updatedAt", "DateTime @updatedAt"),
  ("createdBy", "String?"),
  ("updatedBy", "String?")]

/-- What injection adds is written as the audit fields whose names are missing are defined. -/
theorem map_definition_filter_auditFields (fields : List MappedField) :
    (auditFields.filter fun audit => audit.name ∉ namesOf fields).map
        (fun audit => (audit.name, audit.definition)) =
      auditDefinitions.filter fun entry => entry.1 ∉ namesOf fields := by
  have hdefinitions : auditDefinitions =
      auditFields.map fun audit => (audit.name, audit.definition) := by decide +kernel
  rw [hdefinitions, List.filter_map]
  rfl

/-- Injection adds each audit field exactly once: behind the given fields, which stay as they are,
stand those audit fields whose names are missing, in their order, as if each had been tested against
the list grown so far. All audit names are there afterwards, names are distinct where they were, and
a second injection adds nothing. -/
theorem audit_fields_injected_once (fields : List MappedField) :
    (∃ added, injectAuditFields fields = fields ++ added ∧
      (∀ audit ∈ added, audit ∈ auditFields) ∧
      added.map (fun audit => (audit.name, audit.definition)) =
        auditDefinitions.filter fun entry => entry.1 ∉ namesOf fields) ∧
    injectAuditFields fields = addAllMissing fields auditFields ∧
    (∀ name, name ∈ namesOf (injectAuditFields fields) ↔
      name ∈ namesOf fields ∨ name ∈ auditDefinitions.map (·.1)) ∧
    ((namesOf (injectAuditFields fields)).Nodup ↔ (namesOf fields).Nodup) ∧
    injectAuditFields (injectAuditFields fields) = injectAuditFields fields := by
  refine ⟨⟨_, injectAuditFields_eq fields, ?_, map_definition_filter_auditFields fields⟩,
    injectAuditFields_eq_addAllMissing fields, ?_, nodup_namesOf_injectAuditFields, ?_⟩
  · intro audit haudit
    exact (List.mem_filter.mp haudit).1
  · intro name
    rw [injectAuditFields_eq_addAllMissing]
    exact mem_namesOf_addAllMissing
  · rw [injectAuditFields_eq_addAllMissing, injectAuditFields_eq_addAllMissing]
    exact addAllMissing_addAllMissing fields auditFields

end TableModels
