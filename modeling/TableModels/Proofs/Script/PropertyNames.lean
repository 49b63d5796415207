import TableModels.Proofs.Script.Reading

/-!
# Names of properties

A name of a property is a single token of the script, and the token is a word without a number sign
in front. No white space, bracket or other mark is part of a word, so none is part of such a name.

## Implementation notes

All names of properties are read by one rule, which takes a single word. That the names in a tree
are words follows from this and from the way in which words are cut from the script.
-/

namespace TableModels.Script

/-- The token is a word with no number sign in front. -/
def Token.IsPlainWord (token : Token) : Prop :=
  token.kind = .word ∧ token.text.head? ≠ some '#'

/-- If it is a plain word, then the token consists of the characters of words. -/
def Token.IsSpelled (token : Token) : Prop :=
  token.IsPlainWord → ∀ c ∈ token.text, isWordRest c = true

/-! ### Tokens -/

theorem kind_escapeLexeme_ne (contexts : List Context) (rest : List Char) :
    (escapeLexeme contexts rest).kind ≠ .word := by
  unfold escapeLexeme
  split <;> simp

theorem kind_stringLexeme_ne (quote : Char) (outer : List Context) (first : Char)
    (rest : List Char) : (stringLexeme quote outer first rest).kind ≠ .word := by
  unfold stringLexeme
  repeat' split
  all_goals simp [kind_escapeLexeme_ne]

theorem kind_templateLexeme_ne (outer : List Context) (first : Char) (rest : List Char) :
    (templateLexeme outer first rest).kind ≠ .word := by
  unfold templateLexeme
  repeat' split
  all_goals simp [kind_escapeLexeme_ne]

theorem kind_markLexeme_ne (slashDivides : Bool) (contexts : List Context) (first : Char)
    (rest : List Char) : (markLexeme slashDivides contexts first rest).kind ≠ .word := by
  unfold markLexeme
  repeat' split
  all_goals simp

/-- A word begins with a character of words or a number sign and goes on as far as such characters
reach. -/
theorem lexeme_of_word {contexts : List Context} {slashDivides : Bool} {first : Char}
    {rest : List Char} (h : (lexeme contexts slashDivides first rest).kind = .word) :
    (isWordRest first = true ∨ first = '#') ∧
      (lexeme contexts slashDivides first rest).extra = countWhile isWordRest rest := by
  have hcode : lexeme contexts slashDivides first rest =
      codeLexeme slashDivides contexts first rest := by
    unfold lexeme at h ⊢
    split at h
    · exact absurd h (kind_stringLexeme_ne _ _ _ _)
    · exact absurd h (kind_templateLexeme_ne _ _ _)
    · rfl
  rw [hcode] at h ⊢
  unfold codeLexeme at h ⊢
  split at h
  · rename_i hstart
    simp only [isWordStart, Bool.and_eq_true] at hstart
    exact ⟨Or.inl hstart.1, by simp [isWordStart, hstart]⟩
  · rename_i hstart
    split at h
    · rename_i hsign
      simp only [Bool.and_eq_true, beq_iff_eq] at hsign
      exact ⟨Or.inr hsign.1, by simp [hsign]⟩
    · repeat' split at h
      all_goals first | cases h | exact absurd h (kind_markLexeme_ne _ _ _ _)

theorem isSpelled_of_lexeme {contexts : List Context} {slashDivides : Bool} {first : Char}
    {rest : List Char} {trivia : List Trivia} {line : Nat} :
    Token.IsSpelled ⟨trivia, (lexeme contexts slashDivides first rest).kind,
      (first :: rest).take ((lexeme contexts slashDivides first rest).extra + 1), line⟩ := by
  rintro ⟨hkind, hsign⟩ c hc
  obtain ⟨hfirst, hextra⟩ := lexeme_of_word hkind
  have htake : rest.take (countWhile isWordRest rest) = rest.takeWhile isWordRest :=
    (List.prefix_iff_eq_take.1 (List.takeWhile_prefix _)).symm
  simp only [hextra, List.take_succ_cons, htake] at hsign hc
  obtain rfl | hrest := List.mem_cons.1 hc
  · exact hfirst.resolve_right fun heq => hsign (congrArg some heq)
  · exact List.all_eq_true.1 List.all_takeWhile c hrest

theorem isSpelled_of_mem_tokensFrom {contexts : List Context} {slashDivides : Bool} {line : Nat}
    {pending : List Trivia} {text : List Char} :
    ∀ token ∈ tokensFrom contexts slashDivides line pending text, token.IsSpelled := by
  fun_induction tokensFrom contexts slashDivides line pending text with
  | case1 => simp
  | case2 => assumption
  | case3 contexts slashDivides line pending first rest _ read piece token ih =>
      exact List.forall_mem_cons.2 ⟨isSpelled_of_lexeme, ih⟩

/-- The plain words of a script consist of the characters of words. -/
theorem isSpelled_of_mem_tokenize (text : List Char) :
    ∀ token ∈ tokenize text, token.IsSpelled := by
  unfold tokenize
  split <;> exact isSpelled_of_mem_tokensFrom

/-! ### Trees -/

/-- Every token of the tree is spelled, and every name of a property is a plain word. -/
inductive Tree.NamesWords : Tree → Prop
  | leaf {token : Token} (hspelled : token.IsSpelled) : NamesWords (.leaf token)
  | node {kind : NodeKind} {children : List Tree}
      (hname : kind = .propertyName → ∃ word, children = [.leaf word] ∧ word.IsPlainWord)
      (hchildren : ∀ child ∈ children, NamesWords child) : NamesWords (.node kind children)

namespace Tree

theorem NamesWords.of_mem_children {tree child : Tree} (h : tree.NamesWords)
    (hchild : child ∈ tree.children) : child.NamesWords := by
  cases h with
  | leaf => cases hchild
  | node _ hchildren => exact hchildren child hchild

theorem NamesWords.of_mem_elements {tree element : Tree} (h : tree.NamesWords)
    (helement : element ∈ tree.elements) : element.NamesWords :=
  h.of_mem_children (mem_children_of_mem_elements helement)

/-- A name of a property consists of the characters of words. -/
theorem NamesWords.isWordRest_of_mem_text {tree : Tree} (h : tree.NamesWords)
    (hkind : tree.isKind .propertyName = true) : ∀ c ∈ tree.text, isWordRest c = true := by
  cases h with
  | leaf => cases hkind
  | node hname hchildren =>
      obtain ⟨word, rfl, hplain⟩ := hname (by simpa [isKind, kind?] using hkind)
      cases hchildren _ List.mem_cons_self with
      | leaf hspelled =>
          intro c hc
          apply hspelled hplain c
          simpa [text, tokens, tokensOfAll, verbatim] using hc

theorem NamesWords.of_isPart {tree inner : Tree} (h : tree.NamesWords) (hpart : inner.IsPart tree) :
    inner.NamesWords := by
  induction hpart with
  | refl => exact h
  | inside hchild _ ih => exact ih (h.of_mem_children hchild)

theorem NamesWords.of_mem_nodesOf {kind : NodeKind} {tree inner : Tree} (h : tree.NamesWords)
    (hinner : inner ∈ nodesOf kind tree) : inner.NamesWords :=
  h.of_isPart (isPart_of_mem_nodesOf hinner)

/-- Whether names are words can be told from the leaves and from the nodes for names. -/
theorem namesWords_of_isPart : ∀ tree : Tree,
    (∀ token, (leaf token).IsPart tree → token.IsSpelled) →
    (∀ children, (node .propertyName children).IsPart tree →
      ∃ word, children = [.leaf word] ∧ word.IsPlainWord) → tree.NamesWords
  | leaf token, hleaf, _ => .leaf (hleaf token (.refl _))
  | node kind children, hleaf, hname => by
      apply NamesWords.node
      · rintro rfl
        exact hname children (.refl _)
      · intro child hchild
        apply namesWords_of_isPart child
        · exact fun token hpart => hleaf token (.inside hchild hpart)
        · exact fun below hpart => hname below (.inside hchild hpart)
termination_by tree => sizeOf tree
decreasing_by exact sizeOf_lt_of_mem_children hchild

end Tree

/-! ### Scripts -/

/-- What stands under the node for the name of a property. -/
def propertyNameBody : ScriptRule :=
  .token fun next => next.kind == .word && next.text.head? != some '#'

theorem makesBy_propertyName_grammar (symbol : Symbol) :
    Rule.MakesBy .propertyName propertyNameBody (grammar symbol) := by
  cases symbol
  -- the only node of this kind is that of `ScriptRule.memberName`
  all_goals
    repeat' first
      | exact trivial
      | apply And.intro
      | exact fun _ => rfl
      | (intro hkind; cases hkind)

/-- The names of properties in the tree of a script are plain words. -/
theorem namesWords_parse (text : List Char) : (parse text).NamesWords := by
  apply Tree.namesWords_of_isPart
  · intro token hpart
    exact isSpelled_of_mem_tokenize text token (mem_of_isPart_leaf_treeOf hpart)
  · intro children hpart
    obtain ⟨start, after, -, hreads⟩ :=
      exists_reads_of_isPart_treeOf makesBy_propertyName_grammar (by decide) (by decide) hpart
    cases hreads with
    | token haccepts =>
        refine ⟨_, rfl, ?_⟩
        simpa [Token.IsPlainWord] using haccepts

end TableModels.Script
