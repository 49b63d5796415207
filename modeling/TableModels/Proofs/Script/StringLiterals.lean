import TableModels.Proofs.Script.LineFeeds
import TableModels.Proofs.Script.Reading
import Mathlib.Data.List.Chain

/-!
# String literals in a script

A string literal is cut into pieces, fragments and escape sequences, between two quotes. Nothing
separates the tokens of a literal, so its text is that of its pieces between its quotes.

## Implementation notes

That a piece and what follows it are not separated is a property of the tokens of a script, because
a piece is only read where a literal is open, and leaves it open. Which pieces belong to which
literal is a matter of the rules.
-/

namespace TableModels.Script

/-! ### Pieces among the tokens -/

/-- The kinds of the tokens between the quotes of a literal. -/
def TokenKind.isPiece : TokenKind → Bool
  | .fragment | .escape => true
  | _ => false

theorem TokenKind.isPiece_eq_true_iff {kind : TokenKind} :
    kind.isPiece = true ↔ kind = .fragment ∨ kind = .escape := by
  cases kind <;> simp [isPiece]

/-- A piece, and the token behind a piece, has nothing before it, and no piece is empty. -/
structure AreJoined (tokens : List Token) : Prop where
  pieces : ∀ token ∈ tokens, token.kind.isPiece = true → token.trivia = [] ∧ token.text ≠ []
  behind : tokens.IsChain fun token next => token.kind.isPiece = true → next.trivia = []

theorem AreJoined.of_isSuffix {tokens rest : List Token} (h : AreJoined tokens)
    (hrest : rest <:+ tokens) : AreJoined rest where
  pieces token htoken := h.pieces token (hrest.mem htoken)
  behind := h.behind.suffix hrest

theorem insideLiteral_escapeLexeme {contexts : List Context} (h : insideLiteral contexts = true)
    (rest : List Char) : insideLiteral (escapeLexeme contexts rest).contexts = true := by
  rw [contexts_escapeLexeme]
  exact h

theorem isPiece_markLexeme (slashDivides : Bool) (contexts : List Context) (first : Char)
    (rest : List Char) : (markLexeme slashDivides contexts first rest).kind.isPiece = false := by
  unfold markLexeme
  repeat' split
  all_goals rfl

theorem isPiece_codeLexeme (slashDivides : Bool) (contexts : List Context) (first : Char)
    (rest : List Char) : (codeLexeme slashDivides contexts first rest).kind.isPiece = false := by
  unfold codeLexeme
  repeat' split
  all_goals first | rfl | exact isPiece_markLexeme _ _ _ _

/-- A piece is read where a literal is open, and leaves it open. -/
theorem insideLiteral_of_isPiece {contexts : List Context} {slashDivides : Bool} {first : Char}
    {rest : List Char} (h : (lexeme contexts slashDivides first rest).kind.isPiece = true) :
    insideLiteral contexts = true ∧
      insideLiteral (lexeme contexts slashDivides first rest).contexts = true := by
  unfold lexeme at h ⊢
  split at h
  · refine ⟨rfl, ?_⟩
    unfold stringLexeme at h ⊢
    dsimp only at h ⊢
    split_ifs at h ⊢
    · cases h
    · exact insideLiteral_escapeLexeme rfl rest
    · cases h
    · rfl
  · refine ⟨rfl, ?_⟩
    unfold templateLexeme at h ⊢
    dsimp only at h ⊢
    split_ifs at h ⊢
    · cases h
    · exact insideLiteral_escapeLexeme rfl rest
    · cases h
    · rfl
  · rw [isPiece_codeLexeme] at h
    cases h

/-- Where a literal is open, nothing has been passed since the token before. -/
theorem areJoined_tokensFrom {contexts : List Context} {slashDivides : Bool} {line : Nat}
    {pending : List Trivia} {text : List Char} (h : insideLiteral contexts = true → pending = []) :
    AreJoined (tokensFrom contexts slashDivides line pending text) ∧
      (insideLiteral contexts = true →
        ∀ token ∈ (tokensFrom contexts slashDivides line pending text).head?,
          token.trivia = []) := by
  fun_induction tokensFrom contexts slashDivides line pending text with
  | case1 => exact ⟨⟨by simp, .nil⟩, by simp⟩
  | case2 contexts slashDivides line pending first rest make extra hpiece piece ih =>
      have houtside : insideLiteral contexts = false := by
        by_contra hinside
        rw [dif_pos (Bool.not_eq_false _ ▸ hinside)] at hpiece
        cases hpiece
      have hnever : ∀ {goal : Prop}, insideLiteral contexts = true → goal := by
        intro goal hinside
        rw [houtside] at hinside
        cases hinside
      exact ⟨(ih hnever).1, hnever⟩
  | case3 contexts slashDivides line pending first rest hpiece read piece token ih =>
      obtain ⟨hrest, hhead⟩ := ih fun _ => rfl
      constructor
      · constructor
        · intro other hother hkind
          rcases List.mem_cons.1 hother with rfl | hlater
          · exact ⟨h (insideLiteral_of_isPiece hkind).1, List.cons_ne_nil _ _⟩
          · exact hrest.pieces other hlater hkind
        · apply List.isChain_cons.2
          refine ⟨?_, hrest.behind⟩
          intro next hnext hkind
          exact hhead (insideLiteral_of_isPiece hkind).2 next hnext
      · intro hinside other hother
        obtain rfl := Option.some.inj hother
        exact h hinside

theorem areJoined_tokenize (text : List Char) : AreJoined (tokenize text) := by
  unfold tokenize
  split
  all_goals
    apply And.left
    apply areJoined_tokensFrom
    intro hinside
    cases hinside

/-! ### The rule of strings -/

/-- What the rule of a piece reads. -/
def pieceRule : ScriptRule :=
  .either (.node .fragment (.token (·.kind == .fragment)))
    (.node .escape (.token (·.kind == .escape)))

/-- What stands under the node of a string. -/
def stringBody : ScriptRule :=
  .seq (.token (·.kind == .quote)) (.seq (.many pieceRule) (.token (·.kind == .quote)))

theorem makesBy_string_grammar (symbol : Symbol) :
    Rule.MakesBy .string stringBody (grammar symbol) := by
  cases symbol
  -- the only node of this kind is that of `ScriptRule.string`
  all_goals
    repeat' first
      | exact trivial
      | apply And.intro
      | exact fun _ => rfl
      | (intro hkind; cases hkind)

/-- The node of a piece. -/
def Tree.ofPiece (piece : Token) : Tree :=
  .node (if piece.kind == .fragment then .fragment else .escape) [.leaf piece]

/-- A piece is read as its node. -/
theorem exists_piece_of_reads {tokens rest : List Token} {trees : List Tree}
    (h : Rule.Reads grammar pieceRule tokens trees rest) :
    ∃ piece, piece.kind.isPiece = true ∧ tokens = piece :: rest ∧ trees = [.ofPiece piece] := by
  cases h with
  | first hfragment =>
      cases hfragment with
      | node hinner =>
          cases hinner with
          | token haccepts =>
              have hkind := eq_of_beq haccepts
              exact ⟨_, by rw [hkind]; rfl, rfl, by rw [Tree.ofPiece, hkind]; rfl⟩
  | second hescape =>
      cases hescape with
      | node hinner =>
          cases hinner with
          | token haccepts =>
              have hkind := eq_of_beq haccepts
              exact ⟨_, by rw [hkind]; rfl, rfl, by rw [Tree.ofPiece, hkind]; rfl⟩

theorem exists_pieces_of_reads {tokens rest : List Token} {trees : List Tree}
    (h : Rule.Reads grammar (.many pieceRule) tokens trees rest) :
    ∃ pieces, (∀ piece ∈ pieces, piece.kind.isPiece = true) ∧ tokens = pieces ++ rest ∧
      trees = pieces.map .ofPiece := by
  generalize hrule : Rule.many pieceRule = rule at h
  induction h with
  | stop => exact ⟨[], List.forall_mem_nil _, rfl, rfl⟩
  | more hinner _ _ ih =>
      obtain rfl := Rule.many.inj hrule
      obtain ⟨piece, hpiece, rfl, rfl⟩ := exists_piece_of_reads hinner
      obtain ⟨pieces, hpieces, rfl, rfl⟩ := ih rfl
      exact ⟨piece :: pieces, List.forall_mem_cons.2 ⟨hpiece, hpieces⟩, rfl, rfl⟩
  | _ => cases hrule

/-- A string is read as its pieces between two quotes. -/
theorem exists_pieces_of_reads_stringBody {tokens rest : List Token} {trees : List Tree}
    (h : Rule.Reads grammar stringBody tokens trees rest) :
    ∃ opening pieces closing, (∀ piece ∈ pieces, piece.kind.isPiece = true) ∧
      opening.kind = .quote ∧ closing.kind = .quote ∧
      tokens = opening :: (pieces ++ closing :: rest) ∧
      trees = .leaf opening :: (pieces.map .ofPiece ++ [.leaf closing]) := by
  cases h with
  | seq hopening hbehind =>
      cases hopening with
      | token hopens =>
          cases hbehind with
          | seq hpieces hclosing =>
              cases hclosing with
              | token hcloses =>
                  obtain ⟨pieces, hkinds, rfl, rfl⟩ := exists_pieces_of_reads hpieces
                  exact ⟨_, pieces, _, hkinds, eq_of_beq hopens, eq_of_beq hcloses, rfl, rfl⟩

/-! ### The text of a string -/

theorem Tree.tokensOfAll_eq (trees : List Tree) : tokensOfAll trees = trees.flatMap tokens := by
  induction trees with
  | nil => rfl
  | cons tree rest ih => rw [tokensOfAll, ih, List.flatMap_cons]

/-- Tokens with nothing between them have the text that is put together from theirs. -/
theorem verbatim_cons_of_joined {first : Token} {rest : List Token}
    (h : ∀ token ∈ rest, token.trivia = []) :
    verbatim (first :: rest) = first.text ++ rest.flatMap Token.text := by
  rw [verbatim]
  congr 1
  apply List.flatMap_congr
  intro token htoken
  rw [h token htoken]
  rfl

/-- The token behind pieces has nothing before it. -/
theorem AreJoined.trivia_eq_nil {pieces rest : List Token} {closing : Token}
    (h : AreJoined (pieces ++ closing :: rest)) (hne : pieces ≠ [])
    (hpieces : ∀ piece ∈ pieces, piece.kind.isPiece = true) : closing.trivia = [] := by
  obtain ⟨-, -, hbetween⟩ := List.isChain_append.1 h.behind
  have hlast := List.getLast?_eq_some_getLast hne
  apply hbetween _ hlast closing rfl
  exact hpieces _ (List.getLast_mem hne)

/-- The tree is that of a string of the given pieces: they stand in order between two quotes, none
of them is empty, and the text of the string is theirs between the quotes. -/
structure Tree.IsString (tree : Tree) (pieces : List Token) : Prop where
  kinds : ∀ piece ∈ pieces, piece.kind.isPiece = true
  nonempty : ∀ piece ∈ pieces, piece.text ≠ []
  shape : ∃ opening closing, opening.kind = .quote ∧ closing.kind = .quote ∧
    tree.children = .leaf opening :: (pieces.map ofPiece ++ [.leaf closing]) ∧
    (pieces ≠ [] → tree.text = opening.text ++ (pieces.flatMap Token.text ++ closing.text))

theorem Tree.isString_of_reads {start rest : List Token} {children : List Tree}
    (hjoined : AreJoined start) (h : Rule.Reads grammar stringBody start children rest) :
    ∃ pieces, (node .string children).IsString pieces := by
  obtain ⟨opening, pieces, closing, hkinds, hopening, hclosing, rfl, rfl⟩ :=
    exists_pieces_of_reads_stringBody h
  have hbehind := hjoined.of_isSuffix (List.suffix_cons opening _)
  have hpieces : ∀ piece ∈ pieces, piece.trivia = [] ∧ piece.text ≠ [] := by
    intro piece hpiece
    exact hbehind.pieces piece (List.mem_append_left _ hpiece) (hkinds piece hpiece)
  refine ⟨pieces, hkinds, fun piece hpiece => (hpieces piece hpiece).2, opening, closing, hopening,
    hclosing, rfl, ?_⟩
  intro hne
  have htokens : (node .string (.leaf opening :: (pieces.map ofPiece ++ [.leaf closing]))).tokens =
      opening :: (pieces ++ [closing]) := by
    simp [tokens, tokensOfAll_eq, List.flatMap_map, ofPiece]
  rw [text, htokens, verbatim_cons_of_joined, List.flatMap_append, List.flatMap_singleton]
  intro token htoken
  rcases List.mem_append.1 htoken with hpiece | hlast
  · exact (hpieces token hpiece).1
  · rw [List.mem_singleton.1 hlast]
    exact hbehind.trivia_eq_nil hne hkinds

/-- A string in the tree of a script has pieces. -/
theorem exists_isString_of_isPart_parse {text : List Char} {tree : Tree}
    (hkind : tree.isKind .string = true) (hpart : tree.IsPart (parse text)) :
    ∃ pieces, tree.IsString pieces := by
  cases tree with
  | leaf token => cases hkind
  | node own children =>
      obtain rfl : own = .string := by simpa [Tree.isKind, Tree.kind?] using hkind
      obtain ⟨start, after, hstart, hreads⟩ :=
        exists_reads_of_isPart_treeOf makesBy_string_grammar (by decide) (by decide) hpart
      exact Tree.isString_of_reads ((areJoined_tokenize text).of_isSuffix hstart) hreads

end TableModels.Script
