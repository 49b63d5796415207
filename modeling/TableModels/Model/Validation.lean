import TableModels.Model.Declaration
import TableModels.ModelError

/-! # Consistency of a set of models

Models are checked in order, each against those before it: its name and its table must be new, its
fields must have distinct names, and every column of its indexes must be one of its fields. The
first failure is the answer. -/

namespace TableModels

namespace ModelDeclaration

/-- The first name that also stands earlier, in `seen` or in the list. -/
def repeatedAfter? (seen : List String) : List String → Option String
  | [] => none
  | name :: rest => if name ∈ seen then some name else repeatedAfter? (name :: seen) rest

theorem repeatedAfter?_eq_none_iff {seen names : List String} :
    repeatedAfter? seen names = none ↔ names.Nodup ∧ ∀ name ∈ names, name ∉ seen := by
  induction names generalizing seen with
  | nil => simp [repeatedAfter?]
  | cons first rest ih =>
      simp only [repeatedAfter?]
      split
      · rename_i h
        simp [h]
      · rename_i h
        rw [ih]
        simp only [List.mem_cons, List.nodup_cons, not_or]
        constructor
        · rintro ⟨hrest, hnew⟩
          refine ⟨⟨fun hmem => (hnew first hmem).1 rfl, hrest⟩, ?_⟩
          rintro name (rfl | hname)
          · exact h
          · exact (hnew name hname).2
        · rintro ⟨⟨hfirst, hrest⟩, hnew⟩
          exact ⟨hrest, fun name hname =>
            ⟨fun e => hfirst (e ▸ hname), hnew name (Or.inr hname)⟩⟩

/-- The first index column that is no field of the model. -/
def unknownColumn? (model : ModelDeclaration) : Option String :=
  (model.indexes.flatMap (·.fields)).find? (fun column => !model.fieldNames.contains column)

/-- The first inconsistency of a model, given the models before it. -/
def inconsistency? (seen : List ModelDeclaration) (model : ModelDeclaration) :
    Option ModelError :=
  if seen.any (·.name == model.name) then
    some (.repeatedModel model.name)
  else
    match seen.find? (·.tableName == model.tableName) with
    | some previous => some (.sharedTable model.tableName previous.name model.name)
    | none =>
        match repeatedAfter? [] model.fieldNames with
        | some field => some (.repeatedField model.name field)
        | none => model.unknownColumn?.map (.unknownIndexColumn model.name)

/-- Check models in order, given the models that were checked before. -/
def validateAfter (seen : List ModelDeclaration) : List ModelDeclaration → Except ModelError Unit
  | [] => .ok ()
  | model :: rest =>
      match inconsistency? seen model with
      | some error => .error error
      | none => validateAfter (seen ++ [model]) rest

end ModelDeclaration

/-- Check that a list of models is consistent. -/
def validateModels (models : List ModelDeclaration) : Except ModelError Unit :=
  ModelDeclaration.validateAfter [] models

end TableModels
