import TableModels.Proofs.Column.Carrying
import TableModels.Proofs.Index.Declarations

/-!
# Descriptors that are one call

A descriptor may consist of one call with a label in front. Neither the label nor the white space
around it holds a parenthesis, and a word may begin behind them, so the search finds this call
first, whatever the name of the call looks like. It goes on behind the call, where nothing is left
but white space. So the descriptor declares one index, with the columns that the call lists.
-/

namespace TableModels.Index

open Column (IsBlank)
open Unicode (isWhitespace)

/-- The text of a list of columns: references with commas between them and white space around them.
The last reference may have a comma behind it, too. -/
inductive SpellsColumns : List String → List Char → Prop
  | nothing {space : List Char} (hspace : IsBlank space) : SpellsColumns [] space
  | last {column : String} {before reference behind : List Char}
      (hrefers : RefersTo reference column) (hbefore : IsBlank before)
      (hbehind : IsBlank behind) :
      SpellsColumns [column] (before ++ (reference ++ behind))
  | more {column : String} {columns : List String} {before reference behind rest : List Char}
      (hrefers : RefersTo reference column) (hbefore : IsBlank before) (hbehind : IsBlank behind)
      (hrest : SpellsColumns columns rest) :
      SpellsColumns (column :: columns) (before ++ (reference ++ behind) ++ ',' :: rest)

/-- The text of a descriptor that is one call: a label or none, the word of the kind, a name between
quotes or none, and a list of columns. White space may stand at both ends, around the name and in
front of `.on(`. -/
def SpellsDescriptor (kind : IndexKind) (name : Option (List Char)) (columns : List String)
    (text : List Char) : Prop :=
  ∃ leading label given before behind between list trailing,
    IsLabel label ∧ SpellsName name given ∧ SpellsColumns columns list ∧
    (∀ space ∈ [leading, before, behind, between, trailing], IsBlank space) ∧
    text = leading ++ (label ++ (openingText kind ++ (before ++ (given ++ (behind ++ (")".toList ++
      (between ++ (".on(".toList ++ (list ++ [')'] ++ trailing)))))))))

/-! ### References -/

/-- The characters of references. -/
theorem RefersTo.isIdentRest_or_dot {reference : List Char} {column : String}
    (h : RefersTo reference column) : ∀ c ∈ reference, Source.isIdentRest c = true ∨ c = '.' := by
  obtain ⟨name, hname, -, rfl | ⟨table, htable, rfl⟩⟩ := h
  · exact fun c hc => Or.inl (isIdentRest_of_mem hname c hc)
  · intro c hc
    rcases List.mem_append.1 hc with hc | hc
    · exact Or.inl (isIdentRest_of_mem htable c hc)
    · rcases List.mem_cons.1 hc with rfl | hc
      · exact Or.inr rfl
      · exact Or.inl (isIdentRest_of_mem hname c hc)

theorem RefersTo.isWhitespace_of_mem {reference : List Char} {column : String}
    (h : RefersTo reference column) {c : Char} (hc : c ∈ reference) : isWhitespace c = false := by
  rcases h.isIdentRest_or_dot c hc with hrest | rfl
  · exact (Column.isPlain_of_isIdentRest hrest).1
  · decide

theorem RefersTo.isTrimmed {reference : List Char} {column : String}
    (h : RefersTo reference column) : Text.IsTrimmed reference where
  first _ _ heq := h.isWhitespace_of_mem (heq ▸ List.mem_cons_self)
  last front _ heq := h.isWhitespace_of_mem (heq ▸ List.mem_append_right front List.mem_cons_self)

theorem RefersTo.ne_nil {reference : List Char} {column : String}
    (h : RefersTo reference column) : reference ≠ [] := by
  obtain ⟨name, hname, -, rfl | ⟨table, -, rfl⟩⟩ := h
  · rintro rfl
    cases hname
  · simp

/-- A reference and the white space around it contain no mark of a list. -/
theorem RefersTo.notMem_spaced {reference before behind : List Char} {column : String}
    (h : RefersTo reference column) (hbefore : IsBlank before) (hbehind : IsBlank behind)
    {mark : Char} (hmark : mark ∈ [',', ')']) : mark ∉ before ++ (reference ++ behind) := by
  obtain ⟨hspace, hrest, hdot⟩ : isWhitespace mark = false ∧ Source.isIdentRest mark = false ∧
      mark ≠ '.' := by
    rcases List.mem_pair.1 hmark with rfl | rfl
    · exact ⟨by decide, by decide, by decide⟩
    · exact ⟨by decide, by decide, by decide⟩
  have hreference : mark ∉ reference := by
    intro hmem
    rcases h.isIdentRest_or_dot mark hmem with hident | heq
    · exact Bool.eq_false_iff.1 hrest hident
    · exact hdot heq
  rw [List.mem_append, List.mem_append, not_or, not_or]
  exact ⟨hbefore.notMem hspace, hreference, hbehind.notMem hspace⟩

/-! ### Lists of columns -/

theorem references_of_isBlank {text : List Char} (h : IsBlank text) : references text = [] := by
  have hcomma : ',' ∉ text := h.notMem (by decide)
  rw [references, Text.split_of_notMem hcomma, List.map_singleton, Text.trim_of_blank h]
  rfl

theorem references_spaced {reference before behind : List Char} {column : String}
    (h : RefersTo reference column) (hbefore : IsBlank before) (hbehind : IsBlank behind) :
    references (before ++ (reference ++ behind)) = [reference] := by
  have hcomma := h.notMem_spaced hbefore hbehind (List.mem_cons_self : ',' ∈ [',', ')'])
  rw [references, Text.split_of_notMem hcomma, List.map_singleton,
    Text.trim_append hbefore hbehind h.isTrimmed]
  simp [h.ne_nil]

theorem references_append_comma (text rest : List Char) :
    references (text ++ ',' :: rest) = references text ++ references rest := by
  have hsplit : Text.split (· == ',') (text ++ ',' :: rest) =
      Text.split (· == ',') text ++ Text.split (· == ',') rest := Text.split_append rfl text rest
  rw [references, hsplit, List.map_append, List.filter_append]
  rfl

/-- The references of a list are read in order. -/
theorem SpellsColumns.refersTo {columns : List String} {list : List Char}
    (h : SpellsColumns columns list) : List.Forall₂ RefersTo (references list) columns := by
  induction h with
  | nothing hspace =>
      rw [references_of_isBlank hspace]
      exact .nil
  | last hrefers hbefore hbehind =>
      rw [references_spaced hrefers hbefore hbehind]
      exact .cons hrefers .nil
  | more hrefers hbefore hbehind _ ih =>
      rw [references_append_comma, references_spaced hrefers hbefore hbehind]
      exact .cons hrefers ih

theorem SpellsColumns.paren_notMem {columns : List String} {list : List Char}
    (h : SpellsColumns columns list) : ')' ∉ list := by
  have hparen : ')' ∈ [',', ')'] := by simp
  induction h with
  | nothing hspace => exact hspace.notMem (by decide)
  | last hrefers hbefore hbehind => exact hrefers.notMem_spaced hbefore hbehind hparen
  | more hrefers hbefore hbehind _ ih =>
      rw [List.mem_append, List.mem_cons, not_or, not_or]
      exact ⟨hrefers.notMem_spaced hbefore hbehind hparen, by decide, ih⟩

/-! ### In front of a call -/

theorem IsLabel.paren_notMem {label : List Char} (h : IsLabel label) : '(' ∉ label := by
  obtain rfl | ⟨key, before, behind, hkey, hbefore, hbehind, rfl⟩ := h
  · exact List.not_mem_nil
  · simp only [List.mem_append, List.mem_cons, not_or]
    exact ⟨notMem_of_isIdent hkey (by decide), hbefore.notMem (by decide), by decide,
      hbehind.notMem (by decide)⟩

theorem atBoundary_of_isBlank {text : List Char} (h : IsBlank text) {previous : Option Char}
    (hprevious : AtBoundary previous) : AtBoundary (text.getLast?.or previous) := by
  cases hlast : text.getLast? with
  | none => exact hprevious
  | some c => exact Unicode.isWordCharacter_of_isWhitespace (h c (List.mem_of_getLast? hlast))

/-- A word may begin behind a label. -/
theorem atBoundary_label {leading label : List Char} (hleading : IsBlank leading)
    (hlabel : IsLabel label) : AtBoundary ((leading ++ label).getLast?.or none) := by
  obtain rfl | ⟨key, before, behind, -, -, hbehind, rfl⟩ := hlabel
  · rw [List.append_nil]
    exact atBoundary_of_isBlank hleading rfl
  · have hcolon : AtBoundary (some ':') := by
      rw [AtBoundary, Option.any_some]
      decide +kernel
    have hlast : (leading ++ (key ++ (before ++ ':' :: behind))).getLast? =
        behind.getLast?.or (some ':') := by
      cases hbehindLast : behind.getLast? with
      | none => simp [List.getLast?_append, List.getLast?_cons, hbehindLast]
      | some c => simp [List.getLast?_append, List.getLast?_cons, hbehindLast]
    rw [hlast, Option.or_none]
    exact atBoundary_of_isBlank hbehind hcolon

/-! ### Whole descriptors -/

/-- In a descriptor that is one call this call is found and no other. -/
theorem SpellsDescriptor.findsCalls {kind : IndexKind} {name : Option (List Char)}
    {columns : List String} {text : List Char} (h : SpellsDescriptor kind name columns text) :
    ∃ list, SpellsColumns columns list ∧ FindsCalls none text [⟨kind, name, list⟩] := by
  obtain ⟨leading, label, given, before, behind, between, list, trailing, hlabel, hname, hcolumns,
    hblank, rfl⟩ := h
  simp only [List.forall_mem_cons] at hblank
  obtain ⟨hleading, hbefore, hbehind, hbetween, htrailing, -⟩ := hblank
  have hparen : '(' ∉ leading ++ label := by
    rw [List.mem_append, not_or]
    exact ⟨hleading.notMem (by decide), hlabel.paren_notMem⟩
  have hcall : SpellsCall ⟨kind, name, list⟩ _ :=
    ⟨given, before, behind, between, hname, hbefore, hbehind, hbetween, hcolumns.paren_notMem, rfl⟩
  have hfinds := FindsCalls.of_spellsCall hparen hcall (atBoundary_label hleading hlabel)
    (FindsCalls.of_isBlank htrailing _)
  refine ⟨list, hcolumns, ?_⟩
  simpa only [List.append_assoc] using hfinds

/-- A descriptor that is one call declares exactly the index that the call says: of its kind, under
its name unless that is missing or empty, and with its columns in order. -/
theorem whole_descriptor_declares_one {kind : IndexKind} {name : Option (List Char)}
    {columns : List String} {descriptor : String}
    (h : SpellsDescriptor kind name columns descriptor.toList) (hcolumns : columns ≠ []) :
    indexesOf descriptor =
      [⟨kind, (name.filter (!·.isEmpty)).map String.ofList, columns⟩] := by
  obtain ⟨list, hlist, hfinds⟩ := h.findsCalls
  have hdeclares : IndexCall.Declares ⟨kind, name, list⟩
      ⟨kind, (name.filter (!·.isEmpty)).map String.ofList, columns⟩ :=
    ⟨rfl, rfl, hcolumns, hlist.refersTo⟩
  rw [indexesOf_eq hfinds, List.filterMap_cons_some (declaration?_eq_some_iff.2 hdeclares)]
  rfl

/-- A label that is the word of a call, a name that looks like a call, and a comma behind the last
column. -/
theorem whole_descriptor_declares_one_misleading :
    indexesOf "index: uniqueIndex( 'index(\"a\").on(t.b)' ) .on(t.id, $key ,)" =
      [⟨.unique, some "index(\"a\").on(t.b)", ["id", "$key"]⟩] := by
  have hid : RefersTo "t.id".toList "id" :=
    ⟨"id".toList, by decide, rfl, Or.inr ⟨"t".toList, by decide, by decide⟩⟩
  have hkey : RefersTo "$key".toList "$key" := ⟨"$key".toList, by decide, rfl, Or.inl rfl⟩
  have hlist : SpellsColumns ["id", "$key"] "t.id, $key ,".toList :=
    .more hid Column.isBlank_nil Column.isBlank_nil
      (.more hkey Column.isBlank_space Column.isBlank_space (.nothing Column.isBlank_nil))
  have hspelled : SpellsDescriptor .unique (some "index(\"a\").on(t.b)".toList) ["id", "$key"]
      "index: uniqueIndex( 'index(\"a\").on(t.b)' ) .on(t.id, $key ,)".toList := by
    refine ⟨[], "index: ".toList, _, [' '], [' '], [' '], _, [],
      Or.inr ⟨"index".toList, [], [' '], by decide, Column.isBlank_nil, Column.isBlank_space,
        by decide⟩, .quoted (Or.inr rfl) (by decide), hlist, ?_, by decide⟩
    simp only [List.forall_mem_cons]
    exact ⟨Column.isBlank_nil, Column.isBlank_space, Column.isBlank_space, Column.isBlank_space,
      Column.isBlank_nil, List.forall_mem_nil _⟩
  exact whole_descriptor_declares_one hspelled (List.cons_ne_nil _ _)

end TableModels.Index
