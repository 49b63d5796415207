import TableModels.Proofs.Column.Carrying
import TableModels.Proofs.Column.Rewriting

/-!
# Reading squashed texts

Behind squashing the reader cuts out the same tokens of a text, with other white space between them.
So a squashed text is an expression when the text is, and the expression differs in the texts of the
values that are no literals, which are squashed too.

## Implementation notes

Such a value has the text of a run of tokens. No token begins or ends in white space, and squashing
passes over the characters of a token as they are (`Token.IsSolid`), so the text of a run is squashed
by squashing the white space between its tokens.
-/

namespace TableModels.Column

open Text (squashOutside squeezed squash squashed)
open Unicode (isWhitespace)

/-! ### Tokens of a squashed text -/

/-- The tokens on one line: no white space in front of the first, and one blank or none between
the others. -/
def onOneLine : List Token → List Token
  | [] => []
  | first :: rest => first.regap (fun _ => []) :: rest.map (Token.regap squeezed)

theorem regap_id : Token.regap id = Token.unplaced := rfl

/-- The place of a token is not kept. -/
theorem map_regap_map_unplaced (gapOf : List Char → List Char) (tokens : List Token) :
    (tokens.map Token.unplaced).map (Token.regap gapOf) = tokens.map (Token.regap gapOf) := by
  rw [List.map_map]
  rfl

theorem onOneLine_map_unplaced (tokens : List Token) :
    onOneLine (tokens.map Token.unplaced) = onOneLine tokens := by
  cases tokens with
  | nil => rfl
  | cons first rest =>
      rw [List.map_cons, onOneLine, onOneLine, map_regap_map_unplaced]
      rfl

/-- Neither the place of a text nor white space in front of it matters for the tokens on one
line. -/
theorem onOneLine_tokensFrom_append {before : List Char} (hbefore : IsBlank before)
    (start start' : Nat) (text : List Char) :
    (tokensFrom start (before ++ text)).toOption.map onOneLine =
      (tokensFrom start' text).toOption.map onOneLine := by
  rcases isBlank_or_exists_solid text with hblank | ⟨gap, c, rest, rfl, hgap, hc⟩
  · rw [tokensFrom_of_isBlank (hbefore.append hblank), tokensFrom_of_isBlank hblank]
  · rw [← List.append_assoc, toOption_tokensFrom (hbefore.append hgap) hc,
      toOption_tokensFrom hgap hc]
    cases lexeme c rest with
    | error fault => rfl
    | ok read =>
        -- the tokens behind the first differ in their places
        have hplace := (carries_append_blank isBlank_nil).tokens_eq
          (start' + byteLength gap + byteLength read.text)
          (start + byteLength (before ++ gap) + byteLength read.text) read.rest
        rw [List.append_nil, regap_id] at hplace
        have hcons := congrArg (Option.map fun tokens =>
          ⟨read.kind, 0, [], read.text⟩ :: tokens.map (Token.regap squeezed)) hplace
        simp only [Option.map_map, Function.comp_def, map_regap_map_unplaced] at hcons
        simp only [toOption_ok, Option.bind_some, Option.map_map, Function.comp_def]
        exact hcons

/-- In a text that begins with a token no white space stands in front of it. -/
theorem onOneLine_tokensFrom_of_first {text : List Char}
    (h : ∀ c rest, text = c :: rest → isWhitespace c = false) (start : Nat) :
    (tokensFrom start text).toOption.map (List.map (Token.regap squeezed)) =
      (tokensFrom start text).toOption.map onOneLine := by
  cases text with
  | nil => rw [tokensFrom_of_isBlank isBlank_nil]; rfl
  | cons c rest =>
      rw [← List.nil_append (c :: rest), toOption_tokensFrom isBlank_nil (h c rest rfl)]
      cases lexeme c rest with
      | error fault => rfl
      | ok read =>
          simp only [toOption_ok, Option.bind_some, Option.map_map]
          rfl

/-- Squashing brings the tokens of a text on one line. -/
theorem tokenize_squash (text : List Char) :
    (tokenize (squash text)).toOption.map (List.map Token.unplaced) =
      (tokenize text).toOption.map onOneLine := by
  obtain ⟨before, behind, heq, hbefore, hbehind⟩ := Text.exists_eq_append_trim text
  have htrimmed := Text.isTrimmed_trim text
  generalize hcore : Text.trim text = core at heq htrimmed
  have hplace : ∀ text, ((tokensFrom 0 text).toOption.map (List.map Token.unplaced)).map onOneLine =
      (tokensFrom 0 text).toOption.map onOneLine := by
    intro text
    rw [Option.map_map]
    simp only [Function.comp_def, onOneLine_map_unplaced]
  calc
    (tokenize (squash text)).toOption.map (List.map Token.unplaced)
        = (tokensFrom 0 (squashOutside false core)).toOption.map (List.map Token.unplaced) := by
      rw [squash, hcore, tokenize]
    _ = (tokensFrom 0 core).toOption.map (List.map (Token.regap squeezed)) :=
      carries_squash.tokens_eq 0 0 core
    _ = (tokensFrom 0 core).toOption.map onOneLine :=
      onOneLine_tokensFrom_of_first htrimmed.first 0
    _ = (tokensFrom 0 (core ++ behind)).toOption.map onOneLine := by
      rw [← hplace, ← hplace (core ++ behind), (carries_append_blank hbehind).tokens_eq 0 0 core,
        regap_id]
    _ = (tokenize text).toOption.map onOneLine := by
      rw [tokenize, heq, onOneLine_tokensFrom_append hbefore 0 0]

/-! ### Texts of runs -/

/-- A token whose text squashing keeps, whatever is behind it. -/
structure Token.IsSolid (token : Token) : Prop where
  blank : IsBlank token.gap
  first : ∃ c rest, token.text = c :: rest ∧ isWhitespace c = false
  last : ∃ front c, token.text = front ++ [c] ∧ isWhitespace c = false
  kept : ∀ follow, squashOutside false (token.text ++ follow) =
    token.text ++ squashOutside false follow

theorem squashOutside_append_of_isPlain {text : List Char} (h : ∀ c ∈ text, IsPlain c)
    (follow : List Char) :
    squashOutside false (text ++ follow) = text ++ squashOutside false follow := by
  induction text with
  | nil => rfl
  | cons c rest ih =>
      have hc := h c (by simp)
      rw [List.cons_append, carries_squash.outside_cons hc.1, if_neg (by simp [hc.2]),
        ih fun d hd => h d (List.mem_cons_of_mem c hd), List.cons_append]

/-- A token made of plain characters is solid. -/
theorem isSolid_of_isPlain {token : Token} (hblank : IsBlank token.gap) (hne : token.text ≠ [])
    (h : ∀ c ∈ token.text, IsPlain c) : token.IsSolid where
  blank := hblank
  first := by
    obtain ⟨c, rest, heq⟩ := List.exists_cons_of_ne_nil hne
    exact ⟨c, rest, heq, (h c (by simp [heq])).1⟩
  last := by
    refine ⟨token.text.dropLast, token.text.getLast hne, ?_, ?_⟩
    · exact (List.dropLast_concat_getLast hne).symm
    · exact (h _ (List.getLast_mem hne)).1
  kept := squashOutside_append_of_isPlain h

/-- What the reader cuts off a text is solid. -/
theorem Token.IsReadAt.isSolid {token : Token} {start : Nat} {follow : List Char}
    (h : token.IsReadAt start follow) : token.IsSolid := by
  obtain ⟨first, rest, htext, hspace, hread⟩ := h.lexeme
  have hplain : (∀ c ∈ first :: rest, IsPlain c) → token.IsSolid := by
    intro hall
    rw [← htext] at hall
    exact isSolid_of_isPlain h.blank (by simp [htext]) hall
  generalize token.kind = kind at hread
  cases hread with
  | ident hfirst hrest _ =>
      apply hplain
      intro c hc
      rcases List.mem_cons.1 hc with rfl | hc
      · exact isPlain_of_isIdentRest (Source.isIdentRest_of_isIdentStart hfirst)
      · exact isPlain_of_isIdentRest (hrest c hc)
  | number _ hfirst hrest _ =>
      apply hplain
      intro c hc
      rcases List.mem_cons.1 hc with rfl | hc
      · exact isPlain_of_isNumberRest (by simp [isNumberRest, hfirst])
      · exact isPlain_of_isNumberRest (hrest c hc)
  | quoted _ _ hquote hliteral =>
      have hquote' := isQuote_iff.2 hquote
      obtain ⟨front, hfront⟩ := exists_eq_append_quote hliteral
      refine ⟨h.blank, ⟨first, rest, htext, hspace⟩, ⟨first :: front, first, ?_, hspace⟩, ?_⟩
      · rw [htext, hfront, List.cons_append]
      · intro later
        have hsquashed := quoted_squashInside hquote' (rest ++ later)
        rw [quoted_append hliteral later] at hsquashed
        have hsplit := quoted_splits hsquashed
        rw [htext, List.cons_append, carries_squash.outside_cons hspace, if_pos hquote', hsplit,
          List.cons_append]
  | arrow hfirst hrest =>
      apply hplain
      subst hfirst hrest
      intro c hc
      apply isPlain_of_isPunctuation
      rcases List.mem_cons.1 hc with rfl | hc
      · decide
      · obtain rfl := List.mem_singleton.1 hc
        decide
  | punct _ _ _ hfirst hrest _ =>
      apply hplain
      subst hrest
      intro c hc
      obtain rfl := List.mem_singleton.1 hc
      exact isPlain_of_isPunctuation hfirst

theorem isSolid_of_tokensFrom {start : Nat} {text : List Char} {tokens : List Token}
    (h : tokensFrom start text = .ok tokens) : ∀ token ∈ tokens, token.IsSolid := by
  induction tokens generalizing start text with
  | nil => simp
  | cons first rest ih =>
      rcases cases_of_tokensFrom h with ⟨heq, -⟩ | ⟨token, later, follow, heq, -, hread, hrest⟩
      · cases heq
      · obtain ⟨rfl, rfl⟩ := List.cons.inj heq
        intro token htoken
        rcases List.mem_cons.1 htoken with rfl | htoken
        · exact hread.isSolid
        · exact ih hrest token htoken

/-- Squashing a run that follows a token leaves one blank or none in front of each token. -/
theorem squashOutside_spread {run : List Token} (h : ∀ token ∈ run, token.IsSolid) :
    squashOutside false (spread run) = spread (run.map (Token.regap squeezed)) := by
  induction run with
  | nil => rfl
  | cons token rest ih =>
      have htoken := h token (by simp)
      obtain ⟨c, others, htext, hc⟩ := htoken.first
      have hkept := htoken.kept (spread rest)
      rw [htext, List.cons_append, carries_squash.outside_cons hc] at hkept
      calc
        squashOutside false (spread (token :: rest))
            = squashOutside false (token.gap ++ c :: (others ++ spread rest)) := by
          rw [spread_cons, htext, List.append_assoc, List.cons_append]
        _ = squeezed token.gap ++ (token.text ++ squashOutside false (spread rest)) := by
          rw [carries_squash.solid _ _ _ htoken.blank hc, hkept, htext]
        _ = spread ((token :: rest).map (Token.regap squeezed)) := by
          rw [ih fun other hother => h other (List.mem_cons_of_mem token hother), List.map_cons,
            spread_cons, List.append_assoc]
          rfl

/-- The text of a run begins and ends with a token. -/
theorem isTrimmed_runText {first : Token} {run : List Token}
    (h : ∀ token ∈ first :: run, token.IsSolid) : Text.IsTrimmed (runText (first :: run)) := by
  have hlast : ∃ front c, runText (first :: run) = front ++ [c] ∧ isWhitespace c = false := by
    rcases List.eq_nil_or_concat run with rfl | ⟨before, token, rfl⟩
    · obtain ⟨front, c, htext, hc⟩ := (h first (by simp)).last
      exact ⟨front, c, by rw [runText_cons, spread_nil, List.append_nil, htext], hc⟩
    · rw [List.concat_eq_append] at h ⊢
      obtain ⟨front, c, htext, hc⟩ := (h token (by simp)).last
      refine ⟨first.text ++ (spread before ++ (token.gap ++ front)), c, ?_, hc⟩
      rw [runText_cons, spread_append, spread_cons, spread_nil, htext]
      simp only [List.append_assoc, List.append_nil]
  constructor
  · obtain ⟨c, others, htext, hc⟩ := (h first (by simp)).first
    intro d rest heq
    rw [runText_cons, htext] at heq
    obtain ⟨rfl, -⟩ := List.cons.inj heq
    exact hc
  · obtain ⟨front, c, htext, hc⟩ := hlast
    intro front' d heq
    rw [htext] at heq
    obtain ⟨-, rfl⟩ := List.append_singleton_inj.1 heq
    exact hc

/-- The text of a run of tokens on one line is the squashed text of the run. -/
theorem rewrites_squashed : Rewrites (Token.regap squeezed) squashed Token.IsSolid where
  kind _ := rfl
  text first run h := by
    have hrest : ∀ token ∈ run, token.IsSolid := fun token htoken =>
      h token (List.mem_cons_of_mem first htoken)
    have htext : runText ((first :: run).map (Token.regap squeezed)) =
        squash (runText (first :: run)) := by
      rw [(isTrimmed_runText h).squash_eq, runText_cons, (h first (by simp)).kept,
        squashOutside_spread hrest]
      rfl
    rw [htext, squashed, String.toList_ofList]

theorem rewrites_unplaced : Rewrites Token.unplaced id fun _ => True where
  kind _ := rfl
  text first run _ := by
    have hrun : SameTokens (run.map Token.unplaced) run := by
      rw [SameTokens, List.map_map]
      rfl
    have htext : first.unplaced.text = first.text := rfl
    exact congrArg String.ofList (runText_congr htext hrun)

/-! ### Expressions in squashed texts -/

/-- The expression that all of the tokens make up. -/
def wholeExpression (stop : Nat) (tokens : List Token) : Option Expression :=
  (expression stop tokens).toOption.bind fun (expr, later) =>
    if later.isEmpty then some expr else none

/-- The expression of tokens that change and keep their kinds. -/
theorem Rewrites.wholeExpression_cons_map {change : Token → Token} {rewrite : String → String}
    {Kept : Token → Prop} (h : Rewrites change rewrite Kept) (stop stop' : Nat)
    {first first' : Token} (hfirst : first'.kind = first.kind) {rest : List Token}
    (hkept : ∀ token ∈ rest, Kept token) :
    wholeExpression stop' (first' :: rest.map change) =
      (wholeExpression stop (first :: rest)).map (Expression.mapVerbatim rewrite) := by
  rw [wholeExpression, wholeExpression, h.expression_cons_map stop stop' hfirst rest hkept]
  cases (expression stop (first :: rest)).toOption with
  | none => rfl
  | some pair =>
      obtain ⟨expr, later⟩ := pair
      cases later <;> rfl

theorem wholeExpression_map_unplaced (stop stop' : Nat) (tokens : List Token) :
    wholeExpression stop' (tokens.map Token.unplaced) = wholeExpression stop tokens := by
  cases tokens with
  | nil => rfl
  | cons first rest =>
      have hfirst : first.unplaced.kind = first.kind := rfl
      have hrest : ∀ token ∈ rest, True := fun _ _ => trivial
      have hmap := rewrites_unplaced.wholeExpression_cons_map stop stop' hfirst hrest
      have hid : Expression.mapVerbatim id = id := funext Expression.mapVerbatim_id
      rwa [hid, Option.map_id] at hmap

theorem wholeExpression_onOneLine (stop stop' : Nat) {tokens : List Token}
    (h : ∀ token ∈ tokens, token.IsSolid) :
    wholeExpression stop' (onOneLine tokens) =
      (wholeExpression stop tokens).map (Expression.mapVerbatim squashed) := by
  cases tokens with
  | nil => rfl
  | cons first rest =>
      have hrest : ∀ token ∈ rest, token.IsSolid := fun token htoken =>
        h token (List.mem_cons_of_mem first htoken)
      have hfirst : (first.regap fun _ => []).kind = first.kind := rfl
      exact rewrites_squashed.wholeExpression_cons_map stop stop' hfirst hrest

/-- A squashed text is an expression when the text is, and the verbatim texts are squashed. -/
theorem parse_squashed (text : String) :
    (parse (squashed text)).toOption =
      (parse text).toOption.map (Expression.mapVerbatim squashed) := by
  have htokens := tokenize_squash text.toList
  rw [toOption_parse, toOption_parse, Text.toList_squashed]
  cases hfirst : tokenize text.toList with
  | error error =>
      rw [hfirst] at htokens
      obtain hnone := Option.map_eq_none_iff.1 htokens
      rw [hnone]
      rfl
  | ok tokens =>
      rw [hfirst] at htokens
      obtain ⟨others, hothers, hsame⟩ := Option.map_eq_some_iff.1 htokens
      rw [hothers, toOption_ok, Option.bind_some, Option.bind_some]
      calc
        wholeExpression (squashed text).utf8ByteSize others
            = wholeExpression 0 (others.map Token.unplaced) :=
          (wholeExpression_map_unplaced _ _ others).symm
        _ = wholeExpression 0 (onOneLine tokens) := by rw [hsame]
        _ = (wholeExpression text.utf8ByteSize tokens).map (Expression.mapVerbatim squashed) :=
          wholeExpression_onOneLine _ _ (isSolid_of_tokensFrom hfirst)

/-- What a token is and the text it is written as. -/
def Token.content (token : Token) : TokenKind × List Char :=
  (token.kind, token.text)

theorem map_content_onOneLine (tokens : List Token) :
    (onOneLine tokens).map Token.content = tokens.map Token.content := by
  cases tokens with
  | nil => rfl
  | cons first rest =>
      simp only [onOneLine, List.map_cons, List.map_map]
      rfl

/-- Squashing never changes what is read. A squashed text is cut into tokens when the text is, and
into the same tokens; it is an expression when the text is, and the expression is the same but for
the verbatim texts, which are squashed; and squashing it once more leaves it as it is. -/
theorem squashing_keeps_reading (text : String) :
    (tokenize (squashed text).toList).toOption.map (List.map Token.content) =
        (tokenize text.toList).toOption.map (List.map Token.content) ∧
      (parse (squashed text)).toOption =
        (parse text).toOption.map (Expression.mapVerbatim squashed) ∧
      squashed (squashed text) = squashed text := by
  refine ⟨?_, parse_squashed text, Text.squashed_squashed text⟩
  have htokens := congrArg (Option.map (List.map Token.content)) (tokenize_squash text.toList)
  simp only [Option.map_map, Function.comp_def, map_content_onOneLine, List.map_map] at htokens
  rw [Text.toList_squashed]
  exact htokens

end TableModels.Column
