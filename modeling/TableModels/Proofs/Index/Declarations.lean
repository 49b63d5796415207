import TableModels.Conversion.Assembly
import TableModels.Proofs.Index.Calls
import Mathlib.Data.List.Forall2
import Mathlib.Data.List.TakeWhile

/-!
# The indexes of a table

A call declares an index when its columns are plain references. The indexes of a model are those
that the calls found in the descriptors of its table declare, and a descriptor is handed back when
none of its calls declares one. What stands behind a call plays no part: with or without it the
call declares its index.
-/

namespace TableModels.Index

open Column (IsBlank)
open Text (cut_eq_iff head_dropWhile_ne)

/-- The reference is `column`, or `table.column` for some table. -/
def RefersTo (reference : List Char) (column : String) : Prop :=
  ∃ name, Source.isIdent name = true ∧ column = String.ofList name ∧
    (reference = name ∨ ∃ table, Source.isIdent table = true ∧ reference = table ++ '.' :: name)

/-- The references in a list of columns: what stands between the commas, but for white space. -/
def references (list : List Char) : List (List Char) :=
  ((Text.split (· == ',') list).map Text.trim).filter (!·.isEmpty)

/-- The call declares the index: it has at least one column, and all of them are plain. -/
structure IndexCall.Declares (call : IndexCall) (index : IndexDeclaration) : Prop where
  kind : index.kind = call.kind
  name : index.name = (call.name.filter (!·.isEmpty)).map String.ofList
  nonempty : index.fields ≠ []
  fields : List.Forall₂ RefersTo (references call.columns) index.fields

/-! ### What a call declares -/

theorem isIdentRest_of_mem {name : List Char} (h : Source.isIdent name = true) :
    ∀ c ∈ name, Source.isIdentRest c = true := by
  intro c hc
  cases name with
  | nil => cases hc
  | cons first rest =>
      rw [Source.isIdent, Bool.and_eq_true] at h
      obtain rfl | hrest := List.mem_cons.1 hc
      · exact Source.isIdentRest_of_isIdentStart h.1
      · exact List.all_eq_true.1 h.2 _ hrest

theorem notMem_of_isIdent {name : List Char} (h : Source.isIdent name = true) {c : Char}
    (hc : Source.isIdentRest c = false) : c ∉ name :=
  fun hmem => Bool.eq_false_iff.1 hc (isIdentRest_of_mem h c hmem)

theorem columnOf?_eq_some_iff {reference : List Char} {column : String} :
    columnOf? reference = some column ↔ RefersTo reference column := by
  unfold columnOf?
  dsimp only
  split
  · rename_i hdrop
    have hdot : '.' ∉ reference := by
      intro hmem
      simpa using List.dropWhile_eq_nil_iff.1 hdrop '.' hmem
    constructor
    · intro h
      split at h
      · rename_i hident
        cases h
        exact ⟨reference, hident, rfl, Or.inl rfl⟩
      · cases h
    · rintro ⟨name, hident, rfl, rfl | ⟨table, -, rfl⟩⟩
      · rw [if_pos hident]
      · exact absurd (List.mem_append_right _ List.mem_cons_self) hdot
  · rename_i c rest hdrop
    obtain rfl := head_dropWhile_ne hdrop
    obtain ⟨hreference, hnot⟩ := cut_eq_iff.1 ⟨rfl, hdrop⟩
    constructor
    · intro h
      split at h
      · rename_i htable
        split at h
        · rename_i hident
          cases h
          exact ⟨rest, hident, rfl, Or.inr ⟨_, htable, hreference⟩⟩
        · cases h
      · cases h
    · rintro ⟨name, hident, rfl, rfl | ⟨table, htable, htext⟩⟩
      · have hmem : '.' ∈ reference := by
          rw [hreference]
          exact List.mem_append_right _ List.mem_cons_self
        exact absurd hmem (notMem_of_isIdent hident (by decide))
      · obtain ⟨htake, hrest⟩ := cut_eq_iff.2 ⟨htext, notMem_of_isIdent htable (by decide)⟩
        rw [hdrop] at hrest
        cases hrest
        rw [htake, if_pos htable, if_pos hident]

theorem mapM_eq_some_iff {α β : Type} {f : α → Option β} {items : List α} {results : List β} :
    items.mapM f = some results ↔
      List.Forall₂ (fun item result => f item = some result) items results := by
  induction items generalizing results with
  | nil => cases results <;> simp
  | cons item rest ih =>
      rw [List.mapM_cons]
      cases results with
      | nil => cases f item <;> cases rest.mapM f <;> simp
      | cons result others =>
          rw [List.forall₂_cons, ← ih]
          cases f item <;> cases rest.mapM f <;> simp

theorem columnsOf?_eq_some_iff {list : List Char} {columns : List String} :
    columnsOf? list = some columns ↔ List.Forall₂ RefersTo (references list) columns := by
  have hplain : (fun reference column => columnOf? reference = some column) = RefersTo := by
    ext reference column
    exact columnOf?_eq_some_iff
  rw [← hplain, ← mapM_eq_some_iff]
  rfl

theorem declaration?_eq_some_iff {call : IndexCall} {index : IndexDeclaration} :
    call.declaration? = some index ↔ call.Declares index := by
  unfold IndexCall.declaration?
  constructor
  · intro h
    split at h
    · rename_i first rest hcolumns
      cases h
      exact ⟨rfl, rfl, List.cons_ne_nil _ _, columnsOf?_eq_some_iff.1 hcolumns⟩
    · cases h
  · rintro ⟨hkind, hname, hnonempty, hfields⟩
    obtain ⟨kind, name, fields⟩ := index
    cases fields with
    | nil => exact absurd rfl hnonempty
    | cons first rest =>
        rw [columnsOf?_eq_some_iff.2 hfields]
        simp only at hkind hname
        rw [hkind, hname]

/-! ### What a descriptor declares -/

/-- The indexes of a descriptor, from any search of it. -/
theorem indexesOf_eq {descriptor : String} {calls : List IndexCall}
    (h : FindsCalls none descriptor.toList calls) :
    indexesOf descriptor = calls.filterMap IndexCall.declaration? := by
  rw [indexesOf, Text.Pattern.values, findsCalls_iff.1 h]

theorem mem_indexesOf_iff {descriptor : String} {index : IndexDeclaration} :
    index ∈ indexesOf descriptor ↔
      ∃ calls, FindsCalls none descriptor.toList calls ∧ ∃ call ∈ calls, call.Declares index := by
  constructor
  · intro h
    obtain ⟨calls, hcalls⟩ := exists_findsCalls none descriptor.toList
    rw [indexesOf_eq hcalls] at h
    obtain ⟨call, hcall, hdeclares⟩ := List.mem_filterMap.1 h
    exact ⟨calls, hcalls, call, hcall, declaration?_eq_some_iff.1 hdeclares⟩
  · rintro ⟨calls, hcalls, call, hcall, hdeclares⟩
    rw [indexesOf_eq hcalls]
    apply List.mem_filterMap.2
    exact ⟨call, hcall, declaration?_eq_some_iff.2 hdeclares⟩

theorem isIdent_of_forall₂ {references : List (List Char)} {columns : List String}
    (h : List.Forall₂ RefersTo references columns) :
    ∀ column ∈ columns, Source.isIdent column.toList = true := by
  induction h with
  | nil => simp
  | cons hrefers _ ih =>
      obtain ⟨name, hident, rfl, -⟩ := hrefers
      exact List.forall_mem_cons.2 ⟨by rwa [String.toList_ofList], ih⟩

/-- The columns of an index are identifiers. -/
theorem isIdent_of_mem_fields {descriptor : String} {index : IndexDeclaration}
    (h : index ∈ indexesOf descriptor) :
    ∀ column ∈ index.fields, Source.isIdent column.toList = true := by
  obtain ⟨calls, -, call, -, hdeclares⟩ := mem_indexesOf_iff.1 h
  exact isIdent_of_forall₂ hdeclares.fields

/-- A call declares its index whatever stands behind it. -/
theorem mem_indexesOf_of_spellsCall {descriptor : String} {before matched later : List Char}
    {call : IndexCall} {index : IndexDeclaration}
    (hdescriptor : descriptor.toList = before ++ (matched ++ later)) (hparen : '(' ∉ before)
    (hboundary : AtBoundary before.getLast?) (hcall : SpellsCall call matched)
    (hdeclares : call.Declares index) : index ∈ indexesOf descriptor := by
  have hstart : AtBoundary (before.getLast?.or none) := by rwa [Option.or_none]
  obtain ⟨calls, hlater⟩ := exists_findsCalls matched.getLast? later
  have hcalls := FindsCalls.of_spellsCall hparen hcall hstart hlater
  rw [← hdescriptor] at hcalls
  exact mem_indexesOf_iff.2 ⟨_, hcalls, call, List.mem_cons_self, hdeclares⟩

/-- The indexes of a model are those that the calls in the descriptors of its table declare; the
descriptors of which no call declares one are handed back. A call declares its index whatever stands
behind it. -/
theorem indexes_declared_by_calls (withAudit : Bool) (table : TableDeclaration)
    (fields : List MappedField) :
    (∀ index, index ∈ (assemble withAudit table fields).model.indexes ↔
      ∃ descriptor ∈ table.indexDescriptors, ∃ calls, FindsCalls none descriptor.toList calls ∧
        ∃ call ∈ calls, call.Declares index) ∧
    (∀ descriptor, descriptor ∈ (assemble withAudit table fields).unparsedIndexes ↔
      descriptor ∈ table.indexDescriptors ∧ ∀ calls, FindsCalls none descriptor.toList calls →
        ∀ call ∈ calls, ∀ index, ¬ call.Declares index) ∧
    ∀ descriptor ∈ table.indexDescriptors, ∀ before matched later call index,
      descriptor.toList = before ++ (matched ++ later) → '(' ∉ before →
        AtBoundary before.getLast? → SpellsCall call matched → call.Declares index →
          index ∈ (assemble withAudit table fields).model.indexes ∧
            descriptor ∉ (assemble withAudit table fields).unparsedIndexes := by
  have hindexes : ∀ index, index ∈ (assemble withAudit table fields).model.indexes ↔
      ∃ descriptor ∈ table.indexDescriptors, index ∈ indexesOf descriptor :=
    fun index => List.mem_flatMap
  have hunparsed : ∀ descriptor, descriptor ∈ (assemble withAudit table fields).unparsedIndexes ↔
      descriptor ∈ table.indexDescriptors ∧ indexesOf descriptor = [] := by
    intro descriptor
    rw [assemble, List.mem_filter, List.isEmpty_iff]
  refine ⟨?_, ?_, ?_⟩
  · intro index
    simp only [hindexes, mem_indexesOf_iff]
  · intro descriptor
    rw [hunparsed, List.eq_nil_iff_forall_not_mem]
    simp only [mem_indexesOf_iff, not_exists, not_and]
    constructor
    · rintro ⟨hmem, hnone⟩
      exact ⟨hmem, fun calls hcalls call hcall index => hnone index calls hcalls call hcall⟩
    · rintro ⟨hmem, hnone⟩
      exact ⟨hmem, fun index calls hcalls call hcall => hnone calls hcalls call hcall index⟩
  · intro descriptor hmem before matched later call index hdescriptor hparen hboundary hcall
      hdeclares
    have hindex := mem_indexesOf_of_spellsCall hdescriptor hparen hboundary hcall hdeclares
    refine ⟨(hindexes index).2 ⟨descriptor, hmem, hindex⟩, ?_⟩
    intro hhanded
    rw [((hunparsed descriptor).1 hhanded).2] at hindex
    cases hindex

/-- What stands behind the call of a descriptor does not keep it from declaring its index. -/
theorem indexes_declared_by_calls_where :
    let descriptor := "uniqueIndex(\"users_email\").on(t.email).where(sql`active`)"
    let table : TableDeclaration := ⟨"users", "users", 1, [], none, [descriptor]⟩
    ⟨.unique, some "users_email", ["email"]⟩ ∈ (assemble false table []).model.indexes ∧
      descriptor ∉ (assemble false table []).unparsedIndexes := by
  intro descriptor table
  have hcall : SpellsCall ⟨.unique, some "users_email".toList, "t.email".toList⟩
      "uniqueIndex(\"users_email\").on(t.email)".toList :=
    ⟨_, [], [], [], .quoted (Or.inl rfl) (by decide), Column.isBlank_nil, Column.isBlank_nil,
      Column.isBlank_nil, by decide, by decide⟩
  have hdeclares : IndexCall.Declares ⟨.unique, some "users_email".toList, "t.email".toList⟩
      ⟨.unique, some "users_email", ["email"]⟩ :=
    declaration?_eq_some_iff.1 (by decide +kernel)
  exact (indexes_declared_by_calls false table []).2.2 descriptor List.mem_cons_self []
    "uniqueIndex(\"users_email\").on(t.email)".toList ".where(sql`active`)".toList _ _
    (by decide) List.not_mem_nil rfl hcall hdeclares

/-! ### Whole descriptors -/

/-- Nothing, or an identifier and a colon with white space around the colon. -/
def IsLabel (text : List Char) : Prop :=
  text = [] ∨ ∃ key before behind, Source.isIdent key = true ∧ IsBlank before ∧ IsBlank behind ∧
    text = key ++ (before ++ ':' :: behind)

/-- The descriptor is one call, with a label and white space around it. -/
def IsWholeCall (descriptor : List Char) (call : IndexCall) : Prop :=
  ∃ leading label matched trailing, IsBlank leading ∧ IsLabel label ∧ SpellsCall call matched ∧
    IsBlank trailing ∧ descriptor = leading ++ (label ++ (matched ++ trailing))

/-- A descriptor without label and without white space in front begins with its call. -/
theorem IsWholeCall.exists_trailing {descriptor : List Char} {call : IndexCall}
    (h : IsWholeCall descriptor call) (hcolon : ':' ∉ descriptor)
    (hstop : Column.StopsAt Unicode.isWhitespace descriptor) :
    ∃ trailing, IsBlank trailing ∧ readCall none descriptor = some (call, trailing) := by
  obtain ⟨leading, label, matched, trailing, hleading, hlabel, hcall, htrailing, rfl⟩ := h
  have hnolabel : label = [] := by
    obtain hnone | ⟨key, before, behind, -, -, -, rfl⟩ := hlabel
    · exact hnone
    · exact absurd (by simp) hcolon
  have hnoblank : leading = [] := by
    cases leading with
    | nil => rfl
    | cons c rest =>
        have hspace := hleading c List.mem_cons_self
        rw [hstop c rfl] at hspace
        cases hspace
  subst hnolabel hnoblank
  refine ⟨trailing, htrailing, readCall_eq_some_iff.2 ⟨rfl, matched, hcall, rfl⟩⟩

/-- A table whose first descriptor restricts an index to some rows, and whose second one holds two
calls, the first of them with a sorted column. -/
def tableWithLooseDescriptors : TableDeclaration where
  ident := "users"
  tableName := "users"
  line := 1
  fields := []
  indexBlock := none
  indexDescriptors := [
    "uniqueIndex(\"users_email\").on(t.email).where(sql`active`)",
    "[index(\"a\").on(t.email.desc()), index(\"b\").on(t.email)]"]

/-- Neither descriptor is one call as a whole, and both declare an index. -/
theorem loose_descriptors_declare :
    (assemble false tableWithLooseDescriptors []).model.indexes =
        [⟨.unique, some "users_email", ["email"]⟩, ⟨.index, some "b", ["email"]⟩] ∧
      (assemble false tableWithLooseDescriptors []).unparsedIndexes = [] ∧
      ∀ descriptor ∈ tableWithLooseDescriptors.indexDescriptors, ∀ call,
        ¬ IsWholeCall descriptor.toList call := by
  refine ⟨by decide +kernel, by decide +kernel, ?_⟩
  have hcolons : ∀ descriptor ∈ tableWithLooseDescriptors.indexDescriptors,
      ':' ∉ descriptor.toList := by decide +kernel
  have hstops : ∀ descriptor ∈ tableWithLooseDescriptors.indexDescriptors,
      descriptor.toList.head?.any Unicode.isWhitespace = false := by decide +kernel
  have hbehind : ∀ descriptor ∈ tableWithLooseDescriptors.indexDescriptors,
      ((readCall none descriptor.toList).all fun result =>
        !result.2.all Unicode.isWhitespace) = true := by decide +kernel
  intro descriptor hmem call hwhole
  have hstop : Column.StopsAt Unicode.isWhitespace descriptor.toList := by
    intro c hc
    have hhead := hstops descriptor hmem
    rwa [hc] at hhead
  obtain ⟨trailing, htrailing, hread⟩ := hwhole.exists_trailing (hcolons descriptor hmem) hstop
  have hloose := hbehind descriptor hmem
  rw [hread, Option.all_some, List.all_eq_true.2 htrailing] at hloose
  cases hloose

end TableModels.Index
