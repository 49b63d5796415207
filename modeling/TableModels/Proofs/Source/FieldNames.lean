import TableModels.Proofs.Script.PropertyNames
import TableModels.Source.TableReading

/-!
# Names of fields

A field goes by the name of a property in the document, so it is a word, and its name has no white
space, quote, bracket or other mark. This follows the parts of a declaration that the reading of
tables looks at, from the tree of the document down to the key of an entry.
-/

namespace TableModels.Source

open Script (Tree isWordRest)

/-- The names of the fields consist of the characters of words. -/
def HasWordNames (fields : List FieldDeclaration) : Prop :=
  ∀ field ∈ fields, ∀ c ∈ field.name.toList, isWordRest c = true

theorem hasWordNames_of_object {body : Tree} (h : body.NamesWords) :
    HasWordNames (body.elements.filterMap fieldOf?) := by
  intro field hfield
  obtain ⟨entry, hentry, hread⟩ := List.mem_filterMap.1 hfield
  have hnames := h.of_mem_elements hentry
  unfold fieldOf? at hread
  split at hread
  · rename_i key value hkey hvalue
    split at hread
    · rename_i hkinds
      cases hread
      rw [Bool.and_eq_true] at hkinds
      have hword := hnames.of_mem_children (List.mem_of_head? hkey)
      simpa using hword.isWordRest_of_mem_text hkinds.2
    · cases hread
  · cases hread

theorem hasWordNames_of_tableOf? {includeIndexes : Bool} {ident : String} {line : Nat} {call : Tree}
    (h : call.NamesWords) {reading : TableReading}
    (hread : tableOf? includeIndexes ident line call = some reading) {table : TableDeclaration}
    (htable : reading.table? = some table) : HasWordNames table.fields := by
  unfold tableOf? at hread
  split at hread
  · cases hread
  · split at hread
    · rename_i first body others hargs
      split at hread
      · cases hread
        cases htable
        apply hasWordNames_of_object
        -- the object is an element of the arguments, which are the last child of the call
        cases hlast : call.children.getLast? with
        | none => simp [hlast] at hargs
        | some arguments =>
            rw [hlast, Option.map_some, Option.getD_some] at hargs
            have hbody : body ∈ arguments.elements := by
              rw [hargs]
              exact List.mem_cons_of_mem _ List.mem_cons_self
            have harguments := h.of_mem_children (List.mem_of_getLast? hlast)
            exact harguments.of_mem_elements hbody
      · cases hread
    · cases hread

theorem mem_children_of_declaratorValue? {declarator value : Tree}
    (h : declaratorValue? declarator = some value) : value ∈ declarator.children := by
  unfold declaratorValue? at h
  split at h
  · rename_i mark found rest hdrop
    cases h
    apply (List.dropWhile_suffix _).mem
    rw [hdrop]
    exact List.mem_cons_of_mem _ List.mem_cons_self
  · cases h

theorem hasWordNames_of_readDeclarator? {dialect : Dialect} {includeIndexes : Bool}
    {declaration declarator : Tree} (h : declarator.NamesWords) {reading : TableReading}
    (hread : readDeclarator? dialect includeIndexes declaration declarator = some reading)
    {table : TableDeclaration} (htable : reading.table? = some table) :
    HasWordNames table.fields := by
  unfold readDeclarator? at hread
  split at hread
  · rename_i call name hcall _
    dsimp only at hread
    split at hread
    · rename_i found hfound
      cases hread
      have hvalue := (Option.filter_eq_some_iff.1 hcall).1
      have hnames := h.of_mem_children (mem_children_of_declaratorValue? hvalue)
      exact hasWordNames_of_tableOf? hnames hfound htable
    · cases hread
      cases htable
  · cases hread

theorem hasWordNames_of_mem_readTree {dialect : Dialect} {includeIndexes : Bool} {tree : Tree}
    (h : tree.NamesWords) {reading : TableReading}
    (hreading : reading ∈ readTree dialect includeIndexes tree) {table : TableDeclaration}
    (htable : reading.table? = some table) : HasWordNames table.fields := by
  obtain ⟨declaration, hdeclaration, hread⟩ := List.mem_flatMap.1 hreading
  obtain ⟨declarator, hdeclarator, hone⟩ := List.mem_filterMap.1 hread
  have hnames := h.of_mem_nodesOf hdeclaration
  exact hasWordNames_of_readDeclarator?
    (hnames.of_mem_children (List.mem_filter.1 hdeclarator).1) hone htable

/-- The fields of an extracted table have words for names. -/
theorem hasWordNames_of_mem_extract {source : String} {options : ExtractionOptions}
    {table : TableDeclaration} (h : table ∈ (extract source options).tables) :
    HasWordNames table.fields := by
  obtain ⟨reading, hreading, htable⟩ := List.mem_filterMap.1 h
  exact hasWordNames_of_mem_readTree (Script.namesWords_parse _) hreading htable

end TableModels.Source
