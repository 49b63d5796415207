import TableModels.Script.Document

/-!
# How rules read tokens

The reader of a grammar takes the first alternative that fits, goes on as long as it can and is
given a bound on its depth. None of this matters for what a tree looks like: `Rule.Reads` says how
the parts of a rule read what the rule reads, and whatever holds of all such readings holds of the
tree of a script. So a node in the tree of a script stands over what the rule of its kind reads.

## Implementation notes

A rule with suffixes is read from the left: what its base and some suffixes have read is extended by
one suffix more. This makes do with one inductive relation, where the reader needs two functions.
-/

namespace TableModels.Script

/-! ### Parts of trees -/

namespace Tree

/-- The first tree is the second, or stands somewhere inside it. -/
inductive IsPart : Tree → Tree → Prop
  | refl (tree : Tree) : IsPart tree tree
  | inside {inner child : Tree} {kind : NodeKind} {children : List Tree}
      (hchild : child ∈ children) (h : IsPart inner child) : IsPart inner (.node kind children)

variable {tree child inner : Tree}

theorem IsPart.trans (hinner : inner.IsPart child) (hchild : child.IsPart tree) :
    inner.IsPart tree := by
  induction hchild with
  | refl => exact hinner
  | inside hmem _ ih => exact .inside hmem ih

theorem isPart_of_mem_children (h : child ∈ tree.children) : child.IsPart tree := by
  cases tree with
  | leaf => cases h
  | node kind children => exact .inside h (.refl child)

theorem isPart_of_mem_elements (h : child ∈ tree.elements) : child.IsPart tree :=
  isPart_of_mem_children (mem_children_of_mem_elements h)

mutual

theorem isPart_of_mem_nodesOf {kind : NodeKind} {tree inner : Tree}
    (h : inner ∈ nodesOf kind tree) : inner.IsPart tree := by
  cases tree with
  | leaf => cases h
  | node own children =>
      have hdeeper : inner ∈ nodesOfAll kind children → inner.IsPart (.node own children) := by
        intro hinner
        obtain ⟨child, hchild, hpart⟩ := exists_isPart_of_mem_nodesOfAll hinner
        exact .inside hchild hpart
      rw [nodesOf] at h
      split at h
      · rcases List.mem_cons.1 h with rfl | hinner
        · exact .refl _
        · exact hdeeper hinner
      · exact hdeeper h

theorem exists_isPart_of_mem_nodesOfAll {kind : NodeKind} {trees : List Tree} {inner : Tree}
    (h : inner ∈ nodesOfAll kind trees) : ∃ tree ∈ trees, inner.IsPart tree := by
  cases trees with
  | nil => cases h
  | cons tree rest =>
      rw [nodesOfAll] at h
      rcases List.mem_append.1 h with hfirst | hrest
      · exact ⟨tree, List.mem_cons_self, isPart_of_mem_nodesOf hfirst⟩
      · obtain ⟨later, hlater, hpart⟩ := exists_isPart_of_mem_nodesOfAll hrest
        exact ⟨later, List.mem_cons_of_mem tree hlater, hpart⟩

end

end Tree

namespace Rule

variable {Symbol : Type}

/-! ### Readings -/

/-- From the tokens the rule reads the trees, and the last tokens are left. -/
inductive Reads (grammar : Symbol → Rule Symbol) :
    Rule Symbol → List Token → List Tree → List Token → Prop
  | done {tokens} : Reads grammar done tokens [] tokens
  | token {accepts next rest} (haccepts : accepts next = true) :
      Reads grammar (token accepts) (next :: rest) [.leaf next] rest
  | run {count tokens size} (hcount : count tokens = some size) :
      Reads grammar (run count) tokens ((tokens.take size).map .leaf) (tokens.drop size)
  | guard {holds tokens} (hholds : holds tokens = true) :
      Reads grammar (guard holds) tokens [] tokens
  | ahead {inner tokens trees rest} (hinner : Reads grammar inner tokens trees rest) :
      Reads grammar (ahead inner) tokens [] tokens
  | seq {first second tokens trees between later rest}
      (hfirst : Reads grammar first tokens trees between)
      (hsecond : Reads grammar second between later rest) :
      Reads grammar (seq first second) tokens (trees ++ later) rest
  | first {first second tokens trees rest} (hfirst : Reads grammar first tokens trees rest) :
      Reads grammar (either first second) tokens trees rest
  | second {first second tokens trees rest} (hsecond : Reads grammar second tokens trees rest) :
      Reads grammar (either first second) tokens trees rest
  | stop {inner tokens} : Reads grammar (many inner) tokens [] tokens
  | more {inner tokens trees between later rest} (hinner : Reads grammar inner tokens trees between)
      (hmore : Reads grammar (many inner) between later rest) :
      Reads grammar (many inner) tokens (trees ++ later) rest
  | node {kind inner tokens trees rest} (hinner : Reads grammar inner tokens trees rest) :
      Reads grammar (node kind inner) tokens [.node kind trees] rest
  | base {base suffix tokens trees rest} (hbase : Reads grammar base tokens trees rest) :
      Reads grammar (folded base suffix) tokens trees rest
  | suffixed {base suffix tokens trees between kind children rest}
      (hbefore : Reads grammar (folded base suffix) tokens trees between)
      (hsuffix : Reads grammar suffix between [.node kind children] rest) :
      Reads grammar (folded base suffix) tokens [.node kind (trees ++ children)] rest
  | symbol {name tokens trees rest} (hrule : Reads grammar (grammar name) tokens trees rest) :
      Reads grammar (symbol name) tokens trees rest

variable {grammar : Symbol → Rule Symbol} {depth : Nat} {rule : Rule Symbol}
  {tokens rest : List Token} {trees : List Tree}

/-- Up to this depth, what the reader answers is a reading. -/
def IsSound (grammar : Symbol → Rule Symbol) (depth : Nat) : Prop :=
  ∀ {rule tokens trees rest}, read grammar depth rule tokens = some (trees, rest) →
    Reads grammar rule tokens trees rest

/-- Up to this depth, extending a reading by suffixes gives a reading. -/
def ExtendsSoundly (grammar : Symbol → Rule Symbol) (depth : Nat) : Prop :=
  ∀ {base suffix start trees tokens result rest},
    Reads grammar (folded base suffix) start trees tokens →
      extend grammar depth suffix trees tokens = some (result, rest) →
        Reads grammar (folded base suffix) start result rest

theorem isSound_succ (hread : IsSound grammar depth) (hextend : ExtendsSoundly grammar depth) :
    IsSound grammar (depth + 1) := by
  intro rule tokens trees rest h
  cases rule with
  | done =>
      cases h
      exact .done
  | token accepts =>
      simp only [read] at h
      split at h
      · cases h
      · split at h
        · rename_i haccepts
          cases h
          exact .token haccepts
        · cases h
  | run count =>
      simp only [read] at h
      obtain ⟨size, hcount, heq⟩ := Option.map_eq_some_iff.1 h
      cases heq
      exact .run hcount
  | guard holds =>
      simp only [read] at h
      split at h
      · rename_i hholds
        cases h
        exact .guard hholds
      · cases h
  | ahead inner =>
      simp only [read] at h
      obtain ⟨⟨_, _⟩, hinner, heq⟩ := Option.map_eq_some_iff.1 h
      cases heq
      exact .ahead (hread hinner)
  | seq first second =>
      simp only [read] at h
      split at h
      · cases h
      · rename_i hfirst
        obtain ⟨⟨later, after⟩, hsecond, heq⟩ := Option.map_eq_some_iff.1 h
        cases heq
        exact .seq (hread hfirst) (hread hsecond)
  | either first second =>
      simp only [read] at h
      split at h
      · rename_i hfirst
        cases h
        exact .first (hread hfirst)
      · exact .second (hread h)
  | many inner =>
      simp only [read] at h
      split at h
      · cases h
        exact .stop
      · rename_i hinner
        split at h
        · obtain ⟨⟨later, after⟩, hmore, heq⟩ := Option.map_eq_some_iff.1 h
          cases heq
          exact .more (hread hinner) (hread hmore)
        · cases h
          exact .stop
  | node kind inner =>
      simp only [read] at h
      obtain ⟨⟨_, _⟩, hinner, heq⟩ := Option.map_eq_some_iff.1 h
      cases heq
      exact .node (hread hinner)
  | folded base suffix =>
      simp only [read] at h
      split at h
      · cases h
      · rename_i hbase
        exact hextend (.base (hread hbase)) h
  | symbol called =>
      simp only [read] at h
      exact .symbol (hread h)

theorem extendsSoundly_succ (hread : IsSound grammar depth)
    (hextend : ExtendsSoundly grammar depth) : ExtendsSoundly grammar (depth + 1) := by
  intro base suffix start trees tokens result rest hbefore h
  simp only [extend] at h
  split at h
  · rename_i hsuffix
    split at h
    · exact hextend (.suffixed hbefore (hread hsuffix)) h
    · cases h
      exact hbefore
  · cases h
    exact hbefore

/-- What the reader answers is a reading. -/
theorem reads_of_read (h : read grammar depth rule tokens = some (trees, rest)) :
    Reads grammar rule tokens trees rest := by
  suffices hsound : IsSound grammar depth ∧ ExtendsSoundly grammar depth from hsound.1 h
  clear h
  induction depth with
  | zero =>
      constructor
      · intro rule tokens trees rest h
        cases h
      · intro base suffix start trees tokens result rest _ h
        cases h
  | succ depth ih => exact ⟨isSound_succ ih.1 ih.2, extendsSoundly_succ ih.1 ih.2⟩

/-! ### What a reading leaves and takes -/

theorem Reads.isSuffix (h : Reads grammar rule tokens trees rest) : rest <:+ tokens := by
  induction h with
  | done | guard _ | ahead _ | stop => exact List.suffix_refl _
  | token _ => exact List.suffix_cons _ _
  | run _ => exact List.drop_suffix _ _
  | seq _ _ ihfirst ihsecond => exact ihsecond.trans ihfirst
  | more _ _ ihinner ihmore => exact ihmore.trans ihinner
  | suffixed _ _ ihbefore ihsuffix => exact ihsuffix.trans ihbefore
  | first _ ih | second _ ih | node _ ih | base _ ih | symbol _ ih => exact ih

/-- The leaves of what is read are tokens. -/
theorem Reads.mem_of_isPart_leaf (h : Reads grammar rule tokens trees rest) {tree : Tree}
    (htree : tree ∈ trees) {token : Token} (hpart : (Tree.leaf token).IsPart tree) :
    token ∈ tokens := by
  induction h generalizing tree with
  | done | guard _ | ahead _ | stop => cases htree
  | token _ =>
      obtain rfl := List.mem_singleton.1 htree
      cases hpart
      exact List.mem_cons_self
  | run _ =>
      obtain ⟨taken, htaken, rfl⟩ := List.mem_map.1 htree
      cases hpart
      exact List.mem_of_mem_take htaken
  | seq hfirst _ ihfirst ihsecond =>
      rcases List.mem_append.1 htree with hbefore | hlater
      · exact ihfirst hbefore hpart
      · exact hfirst.isSuffix.mem (ihsecond hlater hpart)
  | more hinner _ ihinner ihmore =>
      rcases List.mem_append.1 htree with hbefore | hlater
      · exact ihinner hbefore hpart
      · exact hinner.isSuffix.mem (ihmore hlater hpart)
  | node _ ih =>
      obtain rfl := List.mem_singleton.1 htree
      cases hpart with
      | inside hchild hinner => exact ih hchild hinner
  | suffixed hbefore _ ihbefore ihsuffix =>
      obtain rfl := List.mem_singleton.1 htree
      cases hpart with
      | inside hchild hinner =>
          rcases List.mem_append.1 hchild with hfront | hback
          · exact ihbefore hfront hinner
          · apply hbefore.isSuffix.mem
            exact ihsuffix List.mem_cons_self (.inside hback hinner)
  | first _ ih | second _ ih | base _ ih | symbol _ ih => exact ih htree hpart

/-! ### Nodes and their rules -/

/-- The rule makes one node, which is of another kind. -/
def MakesOther (kind : NodeKind) : Rule Symbol → Prop
  | node own _ => own ≠ kind
  | either first second => first.MakesOther kind ∧ second.MakesOther kind
  | _ => False

/-- The nodes of the kind that the rule itself makes stand over what the given rule reads. -/
def MakesBy (kind : NodeKind) (body : Rule Symbol) : Rule Symbol → Prop
  | node own inner => (own = kind → inner = body) ∧ MakesBy kind body inner
  | many inner => MakesBy kind body inner
  | seq first second | either first second =>
      MakesBy kind body first ∧ MakesBy kind body second
  -- the children of a suffix do not stand alone under its node
  | folded base suffix =>
      MakesBy kind body base ∧ MakesBy kind body suffix ∧ suffix.MakesOther kind
  | done | token _ | run _ | guard _ | ahead _ | symbol _ => True

variable {kind own : NodeKind} {body : Rule Symbol} {children : List Tree}

theorem MakesOther.kind_ne (h : rule.MakesOther kind)
    (hreads : Reads grammar rule tokens [.node own children] rest) : own ≠ kind := by
  induction rule with
  | node made inner _ =>
      cases hreads
      exact h
  | either first second ihfirst ihsecond =>
      cases hreads with
      | first hfirst => exact ihfirst h.1 hfirst
      | second hsecond => exact ihsecond h.2 hsecond
  | _ => cases h

/-- A node of the kind, wherever it stands in what is read, stands over what the rule of its kind
reads from some place on. -/
theorem Reads.exists_of_isPart (hgrammar : ∀ symbol, MakesBy kind body (grammar symbol))
    (h : Reads grammar rule tokens trees rest) (hrule : MakesBy kind body rule) {tree : Tree}
    (htree : tree ∈ trees) (hpart : (Tree.node kind children).IsPart tree) :
    ∃ start after, start <:+ tokens ∧ Reads grammar body start children after := by
  induction h generalizing tree with
  | done | guard _ | ahead _ | stop => cases htree
  | token _ =>
      obtain rfl := List.mem_singleton.1 htree
      cases hpart
  | run _ =>
      obtain ⟨taken, -, rfl⟩ := List.mem_map.1 htree
      cases hpart
  | seq hfirst _ ihfirst ihsecond =>
      rcases List.mem_append.1 htree with hbefore | hlater
      · exact ihfirst hrule.1 hbefore hpart
      · obtain ⟨start, after, hstart, hbody⟩ := ihsecond hrule.2 hlater hpart
        exact ⟨start, after, hstart.trans hfirst.isSuffix, hbody⟩
  | more hinner _ ihinner ihmore =>
      rcases List.mem_append.1 htree with hbefore | hlater
      · exact ihinner hrule hbefore hpart
      · obtain ⟨start, after, hstart, hbody⟩ := ihmore hrule hlater hpart
        exact ⟨start, after, hstart.trans hinner.isSuffix, hbody⟩
  | node hinner ih =>
      obtain rfl := List.mem_singleton.1 htree
      cases hpart with
      | refl =>
          obtain rfl := hrule.1 rfl
          exact ⟨_, _, List.suffix_refl _, hinner⟩
      | inside hchild hdeeper => exact ih hrule.2 hchild hdeeper
  | suffixed hbefore hsuffix ihbefore ihsuffix =>
      obtain rfl := List.mem_singleton.1 htree
      cases hpart with
      | refl => exact absurd rfl (hrule.2.2.kind_ne hsuffix)
      | inside hchild hdeeper =>
          rcases List.mem_append.1 hchild with hfront | hback
          · exact ihbefore hrule hfront hdeeper
          · obtain ⟨start, after, hstart, hbody⟩ :=
              ihsuffix hrule.2.1 List.mem_cons_self (.inside hback hdeeper)
            exact ⟨start, after, hstart.trans hbefore.isSuffix, hbody⟩
  | first _ ih => exact ih hrule.1 htree hpart
  | second _ ih => exact ih hrule.2 htree hpart
  | base _ ih => exact ih hrule.1 htree hpart
  | symbol _ ih => exact ih (hgrammar _) htree hpart

end Rule

/-! ### The tree of a script -/

/-- The tree of a script stands over the statements that are read, and over the tokens behind them
that follow no rule. -/
theorem exists_treeOf (tokens : List Token) :
    ∃ children trees rest, treeOf tokens = .node .document children ∧
      Rule.Reads grammar statements tokens trees rest ∧
      ∀ child ∈ children, child ∈ trees ∨ child = .node .error (rest.map .leaf) := by
  unfold treeOf
  split
  · rename_i trees hread
    exact ⟨trees, trees, [], rfl, Rule.reads_of_read hread, fun child hchild => .inl hchild⟩
  · rename_i trees rest _ hread
    refine ⟨_, trees, rest, rfl, Rule.reads_of_read hread, ?_⟩
    intro child hchild
    exact (List.mem_append.1 hchild).imp_right List.mem_singleton.1
  · refine ⟨_, [], tokens, rfl, .stop, ?_⟩
    intro child hchild
    exact .inr (List.mem_singleton.1 hchild)

variable {tokens : List Token}

/-- The leaves of the tree of a script are its tokens. -/
theorem mem_of_isPart_leaf_treeOf {token : Token} (h : (Tree.leaf token).IsPart (treeOf tokens)) :
    token ∈ tokens := by
  obtain ⟨children, trees, rest, htree, hreads, hchildren⟩ := exists_treeOf tokens
  rw [htree] at h
  cases h with
  | inside hchild hpart =>
      rcases hchildren _ hchild with hread | rfl
      · exact hreads.mem_of_isPart_leaf hread hpart
      · cases hpart with
        | inside hleaf hsame =>
            obtain ⟨other, hother, rfl⟩ := List.mem_map.1 hleaf
            cases hsame
            exact hreads.isSuffix.mem hother

/-- A node of a kind in the tree of a script stands over what the rule of its kind reads from some
place of the script on. -/
theorem exists_reads_of_isPart_treeOf {kind : NodeKind} {body : ScriptRule} {children : List Tree}
    (hgrammar : ∀ symbol, Rule.MakesBy kind body (grammar symbol)) (hdocument : kind ≠ .document)
    (herror : kind ≠ .error) (h : (Tree.node kind children).IsPart (treeOf tokens)) :
    ∃ start after, start <:+ tokens ∧ Rule.Reads grammar body start children after := by
  have hstatements : Rule.MakesBy kind body statements :=
    ⟨trivial, fun hkind => absurd hkind.symm herror, trivial⟩
  obtain ⟨roots, trees, rest, htree, hreads, hroots⟩ := exists_treeOf tokens
  rw [htree] at h
  cases h with
  | refl => exact absurd rfl hdocument
  | inside hroot hpart =>
      rcases hroots _ hroot with hread | rfl
      · exact hreads.exists_of_isPart hgrammar hstatements hread hpart
      · cases hpart with
        | refl => exact absurd rfl herror
        | inside hleaf hsame =>
            obtain ⟨other, -, rfl⟩ := List.mem_map.1 hleaf
            cases hsame

end TableModels.Script
