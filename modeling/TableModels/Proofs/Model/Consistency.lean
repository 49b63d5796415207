import TableModels.Model.Validation

/-!
# Consistent models

The check goes through the models one after the other and compares each with those before it.
`IsConsistentAfter` says what this comes to for the whole list, without the order of the checks.
-/

namespace TableModels.ModelDeclaration

/-- What the key gives to the models is given to one of them only and to no model seen before. -/
def AreNew (key : ModelDeclaration → String) (seen models : List ModelDeclaration) : Prop :=
  (models.map key).Nodup ∧ ∀ model ∈ models, key model ∉ seen.map key

/-- A list of models is consistent in itself and with the models seen before it. -/
structure IsConsistentAfter (seen models : List ModelDeclaration) : Prop where
  names : AreNew (·.name) seen models
  tables : AreNew (·.tableName) seen models
  fields : ∀ model ∈ models, model.fieldNames.Nodup
  columns : ∀ model ∈ models, ∀ index ∈ model.indexes, ∀ column ∈ index.fields,
    column ∈ model.fieldNames

theorem areNew_cons_iff {key : ModelDeclaration → String} {seen rest : List ModelDeclaration}
    {model : ModelDeclaration} :
    AreNew key seen (model :: rest) ↔
      key model ∉ seen.map key ∧ AreNew key (seen ++ [model]) rest := by
  simp only [AreNew, List.map_cons, List.nodup_cons, List.map_append, List.map_nil,
    List.mem_append, List.mem_singleton, List.forall_mem_cons, not_or]
  constructor
  · rintro ⟨⟨hfirst, hrest⟩, hnew, hlater⟩
    refine ⟨hnew, hrest, ?_⟩
    intro other hother
    refine ⟨hlater other hother, ?_⟩
    intro heq
    apply hfirst
    exact List.mem_map.2 ⟨other, hother, heq⟩
  · rintro ⟨hnew, hrest, hlater⟩
    refine ⟨⟨?_, hrest⟩, hnew, ?_⟩
    · intro hmem
      obtain ⟨other, hother, heq⟩ := List.mem_map.1 hmem
      exact (hlater other hother).2 heq
    · intro other hother
      exact (hlater other hother).1

theorem unknownColumn?_eq_none_iff {model : ModelDeclaration} :
    model.unknownColumn? = none ↔
      ∀ index ∈ model.indexes, ∀ column ∈ index.fields, column ∈ model.fieldNames := by
  rw [unknownColumn?, List.find?_eq_none]
  simp only [List.mem_flatMap, Bool.not_eq_true', List.contains_eq_mem, decide_eq_false_iff_not,
    Classical.not_not, forall_exists_index, and_imp]
  constructor
  · intro h index hindex column hcolumn
    exact h column index hindex hcolumn
  · intro h column index hindex hcolumn
    exact h index hindex column hcolumn

/-- One model passes its check when it is new and its fields and columns are in order. -/
theorem inconsistency?_eq_none_iff {seen : List ModelDeclaration} {model : ModelDeclaration} :
    inconsistency? seen model = none ↔
      model.name ∉ seen.map (·.name) ∧ model.tableName ∉ seen.map (·.tableName) ∧
        model.fieldNames.Nodup ∧
        ∀ index ∈ model.indexes, ∀ column ∈ index.fields, column ∈ model.fieldNames := by
  have hname : seen.any (·.name == model.name) = true ↔ model.name ∈ seen.map (·.name) := by
    simp
  have htable : seen.find? (·.tableName == model.tableName) = none ↔
      model.tableName ∉ seen.map (·.tableName) := by
    rw [List.find?_eq_none]
    simp
  have hfields : repeatedAfter? [] model.fieldNames = none ↔ model.fieldNames.Nodup := by
    rw [repeatedAfter?_eq_none_iff]
    simp
  rw [← hname, ← htable, ← hfields, ← unknownColumn?_eq_none_iff, inconsistency?]
  cases seen.any (·.name == model.name) <;>
    cases seen.find? (·.tableName == model.tableName) <;>
    cases repeatedAfter? [] model.fieldNames <;> simp

/-- The models pass the checks when they are consistent. -/
theorem validateAfter_eq_ok_iff {seen models : List ModelDeclaration} :
    validateAfter seen models = .ok () ↔ IsConsistentAfter seen models := by
  induction models generalizing seen with
  | nil =>
      have hnew : ∀ key, AreNew key seen [] := fun _ => ⟨List.nodup_nil, by simp⟩
      simp only [validateAfter, true_iff]
      exact ⟨hnew _, hnew _, by simp, by simp⟩
  | cons model rest ih =>
      have hstep : validateAfter seen (model :: rest) = .ok () ↔
          inconsistency? seen model = none ∧ validateAfter (seen ++ [model]) rest = .ok () := by
        rw [validateAfter]
        cases inconsistency? seen model <;> simp
      rw [hstep, inconsistency?_eq_none_iff, ih]
      constructor
      · rintro ⟨⟨hname, htable, hfields, hcolumns⟩, hrest⟩
        exact {
          names := areNew_cons_iff.2 ⟨hname, hrest.names⟩
          tables := areNew_cons_iff.2 ⟨htable, hrest.tables⟩
          fields := List.forall_mem_cons.2 ⟨hfields, hrest.fields⟩
          columns := List.forall_mem_cons.2 ⟨hcolumns, hrest.columns⟩ }
      · rintro ⟨hnames, htables, hfields, hcolumns⟩
        rw [areNew_cons_iff] at hnames htables
        rw [List.forall_mem_cons] at hfields hcolumns
        exact ⟨⟨hnames.1, htables.1, hfields.1, hcolumns.1⟩,
          ⟨hnames.2, htables.2, hfields.2, hcolumns.2⟩⟩

/-- The check of a whole list passes exactly when names and tables are distinct over the list and
every model is in order. -/
theorem validateModels_eq_ok_iff (models : List ModelDeclaration) :
    validateModels models = .ok () ↔
      (models.map (·.name)).Nodup ∧ (models.map (·.tableName)).Nodup ∧
        (∀ model ∈ models, (model.fields.map (·.name)).Nodup) ∧
        ∀ model ∈ models, ∀ index ∈ model.indexes, ∀ column ∈ index.fields,
          ∃ field ∈ model.fields, field.name = column := by
  have hcolumn : ∀ (model : ModelDeclaration) (column : String),
      column ∈ model.fieldNames ↔ ∃ field ∈ model.fields, field.name = column :=
    fun model column => List.mem_map
  have hnew : ∀ key : ModelDeclaration → String,
      AreNew key [] models ↔ (models.map key).Nodup := by
    intro key
    rw [AreNew, and_iff_left]
    intro model _
    exact List.not_mem_nil
  rw [validateModels, validateAfter_eq_ok_iff]
  constructor
  · intro h
    refine ⟨(hnew _).1 h.names, (hnew _).1 h.tables, h.fields, ?_⟩
    intro model hmodel index hindex column hmem
    apply (hcolumn model column).1
    exact h.columns model hmodel index hindex column hmem
  · rintro ⟨hnames, htables, hfields, hcolumns⟩
    refine ⟨(hnew _).2 hnames, (hnew _).2 htables, hfields, ?_⟩
    intro model hmodel index hindex column hmem
    apply (hcolumn model column).2
    exact hcolumns model hmodel index hindex column hmem

/-- The contradiction that an error names, between a model and the models before it. -/
inductive IsFaultAfter (seen : List ModelDeclaration) (model : ModelDeclaration) :
    ModelError → Prop where
  | repeatedModel (h : model.name ∈ seen.map (·.name)) :
      IsFaultAfter seen model (.repeatedModel model.name)
  | sharedTable {previous : ModelDeclaration} (hseen : previous ∈ seen)
      (htable : previous.tableName = model.tableName) :
      IsFaultAfter seen model (.sharedTable model.tableName previous.name model.name)
  | repeatedField {before after : List String} {field : String}
      (hfields : model.fieldNames = before ++ field :: after) (hfield : field ∈ before) :
      IsFaultAfter seen model (.repeatedField model.name field)
  | unknownColumn {index : IndexDeclaration} {column : String} (hindex : index ∈ model.indexes)
      (hcolumn : column ∈ index.fields) (hunknown : column ∉ model.fieldNames) :
      IsFaultAfter seen model (.unknownIndexColumn model.name column)

theorem exists_of_repeatedAfter?_eq_some {seen names : List String} {name : String}
    (h : repeatedAfter? seen names = some name) :
    ∃ before after, names = before ++ name :: after ∧ (name ∈ seen ∨ name ∈ before) := by
  induction names generalizing seen with
  | nil => cases h
  | cons first rest ih =>
      rw [repeatedAfter?] at h
      split at h
      · rename_i hmem
        obtain rfl := Option.some.inj h
        exact ⟨[], rest, rfl, .inl hmem⟩
      · obtain ⟨before, after, rfl, hmem⟩ := ih h
        refine ⟨first :: before, after, rfl, ?_⟩
        rw [List.mem_cons, or_assoc] at hmem
        rw [List.mem_cons]
        exact or_left_comm.1 hmem

/-- Whatever the check of one model reports is really there. -/
theorem isFaultAfter_of_inconsistency? {seen : List ModelDeclaration} {model : ModelDeclaration}
    {error : ModelError} (h : inconsistency? seen model = some error) :
    IsFaultAfter seen model error := by
  rw [inconsistency?] at h
  split at h
  · rename_i hname
    obtain rfl := Option.some.inj h
    obtain ⟨previous, hseen, heq⟩ := List.any_eq_true.1 hname
    exact .repeatedModel (List.mem_map.2 ⟨previous, hseen, eq_of_beq heq⟩)
  · split at h
    · rename_i previous hfind
      obtain rfl := Option.some.inj h
      exact .sharedTable (List.mem_of_find?_eq_some hfind)
        (eq_of_beq (List.find?_some hfind :))
    · split at h
      · rename_i field hrepeated
        obtain rfl := Option.some.inj h
        obtain ⟨before, after, hfields, hseen | hfield⟩ :=
          exists_of_repeatedAfter?_eq_some hrepeated
        · exact absurd hseen List.not_mem_nil
        · exact .repeatedField hfields hfield
      · obtain ⟨column, hfind, rfl⟩ := Option.map_eq_some_iff.1 h
        obtain ⟨index, hindex, hcolumn⟩ :=
          List.mem_flatMap.1 (List.mem_of_find?_eq_some hfind)
        refine .unknownColumn hindex hcolumn ?_
        simpa using List.find?_some hfind

/-- An error names a contradiction of the first model that is not consistent with those before
it. -/
theorem exists_isFaultAfter_of_validateAfter {seen models : List ModelDeclaration}
    {error : ModelError} (h : validateAfter seen models = .error error) :
    ∃ before model after, models = before ++ model :: after ∧ IsConsistentAfter seen before ∧
      IsFaultAfter (seen ++ before) model error := by
  induction models generalizing seen with
  | nil => cases h
  | cons model rest ih =>
      rw [validateAfter] at h
      split at h
      · rename_i found hfound
        obtain rfl := Except.error.inj h
        refine ⟨[], model, rest, rfl, ?_, ?_⟩
        · exact validateAfter_eq_ok_iff.1 rfl
        · rw [List.append_nil]
          exact isFaultAfter_of_inconsistency? hfound
      · rename_i hnone
        obtain ⟨before, faulty, after, rfl, hbefore, hfault⟩ := ih h
        refine ⟨model :: before, faulty, after, rfl, ?_, ?_⟩
        · rw [← validateAfter_eq_ok_iff, validateAfter, hnone]
          exact validateAfter_eq_ok_iff.2 hbefore
        · rwa [List.append_assoc] at hfault

/-- Consistency in itself does not depend on the order of the models. -/
theorem IsConsistentAfter.of_perm {models others : List ModelDeclaration}
    (h : IsConsistentAfter [] models) (hperm : models.Perm others) :
    IsConsistentAfter [] others where
  names := ⟨(hperm.map _).nodup_iff.1 h.names.1, by simp⟩
  tables := ⟨(hperm.map _).nodup_iff.1 h.tables.1, by simp⟩
  fields := fun model hmodel => h.fields model (hperm.mem_iff.2 hmodel)
  columns := fun model hmodel => h.columns model (hperm.mem_iff.2 hmodel)

theorem validateModels_of_perm {models others : List ModelDeclaration}
    (h : models.Perm others) : validateModels models = .ok () ↔ validateModels others = .ok () := by
  rw [validateModels, validateModels, validateAfter_eq_ok_iff, validateAfter_eq_ok_iff]
  constructor
  · intro hmodels
    exact hmodels.of_perm h
  · intro hothers
    exact hothers.of_perm h.symm

end TableModels.ModelDeclaration
