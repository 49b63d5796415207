import TableModels.Source.TableReading
import Mathlib.Data.List.Forall2

/-!
# Where tables are declared

Every declarator that calls the table constructor is accounted for: it yields a table, and then each
entry of its object yields a field or a skipped line, or it yields one skipped line and nothing
else.

The declarators are visited declaration by declaration, and a declaration comes before those inside
it. This is the order of the document except where a table is declared inside one declarator and
another declarator of the same declaration follows: then the table that comes first in the document
is visited last.

## Implementation notes

A site is counted where its declarator begins. `Site.inTree` lists the sites in this order without
regard to how they are visited, so that the two orders can be compared.
-/

namespace TableModels.Source

open Script (Tree NodeKind)

/-- A declarator with the declaration in which it stands. -/
structure Site where
  declaration : Tree
  declarator : Tree

namespace Site

/-! ### Two orders -/

/-- The tree as a site, if it is a declarator of the given declaration. -/
def ofChild (declaration? : Option Tree) (tree : Tree) : List Site :=
  match declaration? with
  | some declaration => if tree.isKind .declarator then [⟨declaration, tree⟩] else []
  | none => []

mutual

/-- The sites inside a tree in the order of the document. -/
def inTree : Tree → List Site
  | .leaf _ => []
  | .node kind children =>
      inTrees (if kind = .lexicalDeclaration then some (.node kind children) else none) children

/-- The sites among trees and inside them in the order of the document. The trees are the children
of a lexical declaration, if one is given. -/
def inTrees (declaration? : Option Tree) : List Tree → List Site
  | [] => []
  | tree :: rest => ofChild declaration? tree ++ (inTree tree ++ inTrees declaration? rest)

end

/-- The sites of one declaration. -/
def ofDeclaration (declaration : Tree) : List Site :=
  (declaration.children.filter (·.isKind .declarator)).map (Site.mk declaration)

/-- The sites of a tree, declaration by declaration. -/
def byDeclaration (tree : Tree) : List Site :=
  (tree.nodesOf .lexicalDeclaration).flatMap ofDeclaration

theorem ofDeclaration_eq (declaration : Tree) :
    ofDeclaration declaration = declaration.children.flatMap (ofChild (some declaration)) := by
  rw [ofDeclaration]
  induction declaration.children with
  | nil => rfl
  | cons child rest ih =>
      rw [List.flatMap_cons, ← ih, ofChild, List.filter_cons]
      split_ifs <;> rfl

theorem flatMap_ofChild_none (trees : List Tree) : trees.flatMap (ofChild none) = [] :=
  List.flatMap_eq_nil_iff.mpr fun _ _ => rfl

mutual

/-- Both orders list the same sites. -/
theorem byDeclaration_perm (tree : Tree) : (byDeclaration tree).Perm (inTree tree) := by
  cases tree with
  | leaf token => exact .refl _
  | node kind children =>
      have hall := byDeclarations_perm
        (if kind = .lexicalDeclaration then some (.node kind children) else none) children
      rw [byDeclaration, Tree.nodesOf, inTree]
      split_ifs at hall ⊢
      · rw [List.flatMap_cons, ofDeclaration_eq]
        exact hall
      · rw [flatMap_ofChild_none, List.nil_append] at hall
        exact hall

theorem byDeclarations_perm (declaration? : Option Tree) (trees : List Tree) :
    (trees.flatMap (ofChild declaration?) ++
      (Tree.nodesOfAll .lexicalDeclaration trees).flatMap ofDeclaration).Perm
        (inTrees declaration? trees) := by
  cases trees with
  | nil => exact .refl _
  | cons tree rest =>
      have hfirst := byDeclaration_perm tree
      have hrest := byDeclarations_perm declaration? rest
      rw [inTrees, Tree.nodesOfAll, List.flatMap_cons, List.flatMap_append, List.append_assoc]
      apply List.Perm.append_left
      -- the sites inside the first tree move in front of the declarators that follow it
      calc
        _ = rest.flatMap (ofChild declaration?) ++ (byDeclaration tree ++
              (Tree.nodesOfAll .lexicalDeclaration rest).flatMap ofDeclaration) := rfl
        _ = (rest.flatMap (ofChild declaration?) ++ byDeclaration tree) ++
              (Tree.nodesOfAll .lexicalDeclaration rest).flatMap ofDeclaration :=
          (List.append_assoc _ _ _).symm
        List.Perm _ ((byDeclaration tree ++ rest.flatMap (ofChild declaration?)) ++
              (Tree.nodesOfAll .lexicalDeclaration rest).flatMap ofDeclaration) :=
          List.perm_append_comm.append_right _
        _ = byDeclaration tree ++ (rest.flatMap (ofChild declaration?) ++
              (Tree.nodesOfAll .lexicalDeclaration rest).flatMap ofDeclaration) :=
          List.append_assoc _ _ _
        List.Perm _ (inTree tree ++ inTrees declaration? rest) := hfirst.append hrest

end

/-- The child and those that follow it in a declaration, when a site counts in one of them at most:
no site counts inside the child, or none that follows counts. -/
def StaysApart (counts : Site → Bool) (declaration? : Option Tree) (child later : Tree) : Prop :=
  (inTree child).filter counts = [] ∨ (ofChild declaration? later).filter counts = []

/-- Wherever a site that counts is inside a child of a declaration, no later child of this
declaration is itself a site that counts. -/
def KeepsOrder (counts : Site → Bool) (tree : Tree) : Prop :=
  ∀ declaration ∈ tree.nodesOf .lexicalDeclaration,
    declaration.children.Pairwise (StaysApart counts (some declaration))

theorem filter_flatMap_ofChild_of_forall {counts : Site → Bool} {declaration? : Option Tree}
    {child : Tree} {rest : List Tree}
    (h : ∀ later ∈ rest, StaysApart counts declaration? child later)
    (hinside : (inTree child).filter counts ≠ []) :
    (rest.flatMap (ofChild declaration?)).filter counts = [] := by
  rw [List.filter_flatMap, List.flatMap_eq_nil_iff]
  intro later hlater
  exact (h later hlater).resolve_left hinside

mutual

theorem filter_byDeclaration {counts : Site → Bool} {tree : Tree} (h : KeepsOrder counts tree) :
    (byDeclaration tree).filter counts = (inTree tree).filter counts := by
  cases tree with
  | leaf token => rfl
  | node kind children =>
      unfold KeepsOrder at h
      rw [Tree.nodesOf] at h
      rw [byDeclaration, Tree.nodesOf, inTree]
      split_ifs at h ⊢
      · obtain ⟨hown, hinner⟩ := List.forall_mem_cons.mp h
        rw [List.flatMap_cons, ofDeclaration_eq]
        exact filter_byDeclarations hown hinner
      · have hown : children.Pairwise (StaysApart counts none) :=
          List.pairwise_of_forall fun _ _ => Or.inr rfl
        have hall := filter_byDeclarations hown h
        rw [flatMap_ofChild_none, List.nil_append] at hall
        exact hall

theorem filter_byDeclarations {counts : Site → Bool} {declaration? : Option Tree}
    {trees : List Tree} (hown : trees.Pairwise (StaysApart counts declaration?))
    (h : ∀ declaration ∈ Tree.nodesOfAll .lexicalDeclaration trees,
      declaration.children.Pairwise (StaysApart counts (some declaration))) :
    (trees.flatMap (ofChild declaration?) ++
      (Tree.nodesOfAll .lexicalDeclaration trees).flatMap ofDeclaration).filter counts =
        (inTrees declaration? trees).filter counts := by
  cases trees with
  | nil => rfl
  | cons tree rest =>
      rw [Tree.nodesOfAll, List.forall_mem_append] at h
      obtain ⟨hfirst, hrest⟩ := List.pairwise_cons.mp hown
      have hinside : (byDeclaration tree).filter counts = (inTree tree).filter counts :=
        filter_byDeclaration h.1
      have hlater := filter_byDeclarations hrest h.2
      rw [List.filter_append] at hlater
      rw [inTrees, Tree.nodesOfAll, List.flatMap_cons, List.flatMap_append, List.append_assoc,
        List.filter_append, List.filter_append, List.filter_append, List.filter_append,
        List.filter_append, ← hlater]
      change _ ++ (_ ++ ((byDeclaration tree).filter counts ++ _)) = _
      rw [hinside]
      by_cases hempty : (inTree tree).filter counts = []
      · rw [hempty, List.nil_append, List.nil_append]
      · rw [filter_flatMap_ofChild_of_forall hfirst hempty, List.nil_append, List.nil_append]

end

/-! ### What a site is read as -/

/-- The name that the declarator declares. -/
def ident (site : Site) : String :=
  (site.declarator.children.head?.map fun name => String.ofList name.text).getD ""

/-- The declarator calls the table constructor. -/
def isTable (dialect : Dialect) (site : Site) : Bool :=
  (callOf? dialect.tableConstructor site.declarator).isSome

end Site

/-- The arguments of a call. -/
def argumentsOf (call : Tree) : List Tree :=
  (call.children.getLast?.map Tree.elements).getD []

/-- An entry of the object of a table becomes a field or, if it has another form, a skipped line,
on the line on which the entry begins. -/
def IsEntryRead (ident : String) (entry : Tree) : FieldDeclaration ⊕ SkippedLine → Prop
  | .inl field => fieldOf? entry = some field ∧ field.line = entry.line
  | .inr line =>
      fieldOf? entry = none ∧ line.table = ident ∧ line.line = entry.line ∧
        line.text = String.ofList entry.flatText

/-- The entries of an object become the fields and the skipped lines of its table, each in the
order of the entries. -/
def AreEntriesRead (ident : String) (entries : List Tree) (fields : List FieldDeclaration)
    (skipped : List SkippedLine) : Prop :=
  ∃ results : List (FieldDeclaration ⊕ SkippedLine),
    List.Forall₂ (IsEntryRead ident) entries results ∧
      fields = results.filterMap Sum.getLeft? ∧ skipped = results.filterMap Sum.getRight?

/-- A site becomes a table with all the entries of the second argument of its call, or one skipped
line. Either carries the name of the site. -/
def Site.IsReadAs (dialect : Dialect) (site : Site) : TableReading → Prop
  | .table declaration skipped =>
      declaration.ident = site.ident ∧ declaration.line = site.declaration.line ∧
        ∃ call body, callOf? dialect.tableConstructor site.declarator = some call ∧
          (argumentsOf call)[1]? = some body ∧
          AreEntriesRead site.ident body.elements declaration.fields skipped
  | .rejected line => line.table = site.ident ∧ line.line = site.declaration.line

theorem line_of_fieldOf? {entry : Tree} {field : FieldDeclaration}
    (h : fieldOf? entry = some field) : field.line = entry.line := by
  unfold fieldOf? at h
  split at h
  · split_ifs at h
    cases h
    rfl
  · cases h

/-- What an entry becomes. -/
def entryReading (ident : String) (entry : Tree) : FieldDeclaration ⊕ SkippedLine :=
  match fieldOf? entry with
  | some field => .inl field
  | none => .inr ⟨ident, entry.line, String.ofList entry.flatText⟩

theorem isEntryRead_entryReading (ident : String) (entry : Tree) :
    IsEntryRead ident entry (entryReading ident entry) := by
  rw [entryReading]
  cases hfield : fieldOf? entry with
  | some field => exact ⟨hfield, line_of_fieldOf? hfield⟩
  | none => exact ⟨hfield, rfl, rfl, rfl⟩

theorem getLeft?_entryReading (ident : String) (entry : Tree) :
    (entryReading ident entry).getLeft? = fieldOf? entry := by
  rw [entryReading]
  cases fieldOf? entry <;> rfl

theorem getRight?_entryReading (ident : String) (entry : Tree) :
    (entryReading ident entry).getRight? = skippedLineOf? ident entry := by
  rw [entryReading, skippedLineOf?]
  cases fieldOf? entry <;> rfl

theorem areEntriesRead_filterMap (ident : String) (entries : List Tree) :
    AreEntriesRead ident entries (entries.filterMap fieldOf?)
      (entries.filterMap (skippedLineOf? ident)) := by
  refine ⟨entries.map (entryReading ident), ?_, ?_, ?_⟩
  · rw [List.forall₂_map_right_iff, List.forall₂_same]
    exact fun entry _ => isEntryRead_entryReading ident entry
  · rw [List.filterMap_map]
    exact List.filterMap_congr fun entry _ => (getLeft?_entryReading ident entry).symm
  · rw [List.filterMap_map]
    exact List.filterMap_congr fun entry _ => (getRight?_entryReading ident entry).symm

/-- A call that is read becomes a table with all the entries of its second argument. -/
theorem exists_of_tableOf? {includeIndexes : Bool} {ident : String} {line : Nat} {call : Tree}
    {reading : TableReading} (h : tableOf? includeIndexes ident line call = some reading) :
    ∃ declaration skipped body, reading = .table declaration skipped ∧
      declaration.ident = ident ∧ declaration.line = line ∧
      (argumentsOf call)[1]? = some body ∧
      AreEntriesRead ident body.elements declaration.fields skipped := by
  unfold tableOf? at h
  split_ifs at h
  split at h
  · rename_i first body others harguments
    split at h
    · cases h
      have hbody : (argumentsOf call)[1]? = some body := by
        rw [argumentsOf, harguments]
        rfl
      exact ⟨_, _, body, rfl, rfl, rfl, hbody, areEntriesRead_filterMap ident body.elements⟩
    · cases h
  · cases h

theorem exists_head?_of_callOf? {function : String} {declarator call : Tree}
    (h : callOf? function declarator = some call) :
    ∃ name, declarator.children.head? = some name := by
  have hvalue := (Option.filter_eq_some_iff.1 h).1
  unfold declaratorValue? at hvalue
  cases hchildren : declarator.children with
  | nil => simp [hchildren] at hvalue
  | cons name rest => exact ⟨name, rfl⟩

/-- A site is read exactly when it calls the table constructor, and as what it may become. -/
theorem readDeclarator?_of_site (dialect : Dialect) (includeIndexes : Bool) (site : Site) :
    (readDeclarator? dialect includeIndexes site.declaration site.declarator).isSome =
        site.isTable dialect ∧
      ∀ reading, readDeclarator? dialect includeIndexes site.declaration site.declarator =
        some reading → site.IsReadAs dialect reading := by
  unfold readDeclarator? Site.isTable
  cases hcall : callOf? dialect.tableConstructor site.declarator with
  | none => exact ⟨rfl, fun _ hread => by cases hread⟩
  | some call =>
      obtain ⟨name, hname⟩ := exists_head?_of_callOf? hcall
      have hident : site.ident = String.ofList name.text := by
        rw [Site.ident, hname]
        rfl
      rw [hname]
      dsimp only
      rw [← hident]
      cases htable : tableOf? includeIndexes site.ident site.declaration.line call with
      | none =>
          refine ⟨rfl, fun reading hread => ?_⟩
          cases hread
          exact ⟨rfl, rfl⟩
      | some found =>
          refine ⟨rfl, fun reading hread => ?_⟩
          cases hread
          obtain ⟨declaration, skipped, body, rfl, hdeclared, hline, hbody, hentries⟩ :=
            exists_of_tableOf? htable
          exact ⟨hdeclared, hline, call, body, hcall, hbody, hentries⟩

theorem readTree_eq (dialect : Dialect) (includeIndexes : Bool) (tree : Tree) :
    readTree dialect includeIndexes tree =
      (Site.byDeclaration tree).filterMap fun site =>
        readDeclarator? dialect includeIndexes site.declaration site.declarator := by
  rw [readTree, Site.byDeclaration, List.filterMap_flatMap]
  apply List.flatMap_congr
  intro declaration _
  rw [readDeclaration, Site.ofDeclaration, List.filterMap_map]
  rfl

theorem forall₂_filterMap {α β : Type} {read : α → Option β} {counts : α → Bool}
    {holds : α → β → Prop} (items : List α)
    (h : ∀ item, (read item).isSome = counts item ∧
      ∀ value, read item = some value → holds item value) :
    List.Forall₂ holds (items.filter counts) (items.filterMap read) := by
  induction items with
  | nil => exact .nil
  | cons item rest ih =>
      obtain ⟨hcounts, hholds⟩ := h item
      cases hread : read item with
      | none =>
          rw [hread] at hcounts
          rw [List.filterMap_cons_none hread, List.filter_cons_of_neg (by simp [← hcounts])]
          exact ih
      | some value =>
          rw [hread] at hcounts
          rw [List.filterMap_cons_some hread, List.filter_cons_of_pos hcounts.symm]
          exact .cons (hholds value hread) ih

/-- The sites of a tree that call the table constructor, in the order of the document. -/
def tableSites (dialect : Dialect) (tree : Tree) : List Site :=
  (Site.inTree tree).filter (Site.isTable dialect)

/-- A table inside the first of two declarators of one declaration. -/
def nestedSource : String :=
  "const make = () => \x7b const b = mysqlTable(\"b\", \x7b id: int() \x7d); \x7d, "
    ++ "c = mysqlTable(\"c\", \x7b id: int() \x7d);"

end TableModels.Source
