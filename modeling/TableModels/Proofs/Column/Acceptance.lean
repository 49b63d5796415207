import TableModels.Proofs.Column.Backtracking
import TableModels.Proofs.Column.Grammar

/-!
# What the reader accepts

The texts that the reader accepts are those whose tokens a form spells. Two things leave no trace
in this: whether a value is a literal, since readers that try a literal first stop at the same
token as those that do not, and the type arguments, since forms that differ in them alone denote
the same expression.
-/

namespace TableModels.Column

/-- The form without its type arguments and without the places of its tokens. -/
def CallForm.bare (form : CallForm) : CallForm :=
  ⟨form.name, [], form.arguments.map (List.map (List.map Token.unplaced))⟩

/-- The form without type arguments and without the places of its tokens. -/
def ExpressionForm.bare (form : ExpressionForm) : ExpressionForm :=
  ⟨form.base.bare, form.chain.map CallForm.bare⟩

theorem runValue_map_unplaced (run : List Token) :
    runValue (run.map Token.unplaced) = runValue run := by
  have hsame : SameTokens (run.map Token.unplaced) run := by
    rw [SameTokens, List.map_map]
    rfl
  exact hsame.runValue_eq

@[simp] theorem CallForm.bare_call (form : CallForm) : form.bare.call = form.call := by
  obtain ⟨name, generic, arguments⟩ := form
  cases arguments with
  | none => rfl
  | some runs =>
      simp only [call, bare, Option.map_some, Option.getD_some, List.map_map, Call.mk.injEq,
        true_and]
      apply List.map_congr_left
      intro run _
      exact runValue_map_unplaced run

/-- Neither type arguments nor places belong to what a form denotes. -/
theorem ExpressionForm.bare_expression (form : ExpressionForm) :
    form.bare.expression = form.expression := by
  have hchain : (form.chain.map CallForm.bare).map CallForm.call =
      form.chain.map CallForm.call := by
    rw [List.map_map]
    apply List.map_congr_left
    intro member _
    exact member.bare_call
  rw [expression, expression, bare, hchain, CallForm.bare_call]

/-- Texts whose forms differ in type arguments and places alone are read as one expression. -/
theorem parse_congr_of_bare {first second : String} {tokens others : List Token}
    {form other : ExpressionForm} (hfirst : tokenize first.toList = .ok tokens)
    (hsecond : tokenize second.toList = .ok others) (hform : form.Spells tokens)
    (hother : other.Spells others) (hbare : form.bare = other.bare) :
    parse first = parse second := by
  calc
    parse first = .ok form.expression := parse_eq_ok_iff.2 ⟨tokens, form, hfirst, hform, rfl⟩
    _ = .ok form.bare.expression := by rw [form.bare_expression]
    _ = .ok other.bare.expression := by rw [hbare]
    _ = .ok other.expression := by rw [other.bare_expression]
    _ = parse second := (parse_eq_ok_iff.2 ⟨others, other, hsecond, hother, rfl⟩).symm

/-- The reader accepts the grammar and nothing else. The readers of the grammar are the ones that
try a literal first and go back when it ends too early; no such readers stop at another token than
the text of a value does. Type arguments do not change what is read. -/
theorem parse_accepts_grammar :
    (∀ text, (∃ expr, parse text = .ok expr) ↔
      ∃ tokens form, tokenize text.toList = .ok tokens ∧ ExpressionForm.Spells form tokens) ∧
    Backtracks literalAhead? valueAhead? objectEntries arrayItems ∧
    (∀ literal? value? entries? items?, Backtracks literal? value? entries? items? →
      ∀ tokens, value? tokens = valueAhead? tokens ∧
        (value? tokens).map Prod.snd = (verbatimAhead? tokens).map Prod.snd) ∧
    ∀ first second tokens others form other, tokenize first.toList = .ok tokens →
      tokenize second.toList = .ok others → ExpressionForm.Spells form tokens →
      ExpressionForm.Spells other others → form.bare = other.bare →
      parse first = parse second := by
  refine ⟨?_, backtracks_valueAhead?, ?_, ?_⟩
  · intro text
    constructor
    · rintro ⟨expr, hexpr⟩
      obtain ⟨tokens, form, htokens, hform, -⟩ := parse_eq_ok_iff.1 hexpr
      exact ⟨tokens, form, htokens, hform⟩
    · rintro ⟨tokens, form, htokens, hform⟩
      exact ⟨form.expression, parse_eq_ok_iff.2 ⟨tokens, form, htokens, hform, rfl⟩⟩
  · intro literal? value? entries? items? h tokens
    exact ⟨(h.readers_eq tokens).1, h.rest_eq tokens⟩
  · intro first second tokens others form other hfirst hsecond hform hother hbare
    exact parse_congr_of_bare hfirst hsecond hform hother hbare

theorem parse_accepts_grammar_int :
    (∃ expr, parse "int(1)" = .ok expr) ∧ parse "int<a>(1)" = parse "int(1)" := by
  obtain ⟨haccepts, -, -, hgeneric⟩ := parse_accepts_grammar
  have hplain : tokenize "int(1)".toList = .ok
      [⟨.ident "int", 0, [], ['i', 'n', 't']⟩, ⟨.punct '(', 3, [], ['(']⟩,
        ⟨.number "1", 4, [], ['1']⟩, ⟨.punct ')', 5, [], [')']⟩] :=
    toOption_eq_some_iff.1 (by decide +kernel)
  have htyped : tokenize "int<a>(1)".toList = .ok
      [⟨.ident "int", 0, [], ['i', 'n', 't']⟩, ⟨.punct '<', 3, [], ['<']⟩,
        ⟨.ident "a", 4, [], ['a']⟩, ⟨.punct '>', 5, [], ['>']⟩, ⟨.punct '(', 6, [], ['(']⟩,
        ⟨.number "1", 7, [], ['1']⟩, ⟨.punct ')', 8, [], [')']⟩] :=
    toOption_eq_some_iff.1 (by decide +kernel)
  have harguments : ∀ first second third,
      IsArguments [⟨.punct '(', first, [], ['(']⟩, ⟨.number "1", second, [], ['1']⟩,
        ⟨.punct ')', third, [], [')']⟩] [[⟨.number "1", second, [], ['1']⟩]] := by
    intro first second third
    have hone : IsValueRun [⟨.number "1", second, [], ['1']⟩] :=
      isValueRun_iff.2 ⟨by simp, rfl⟩
    have hlisting : IsListing ')' IsArgument
        ([⟨.number "1", second, [], ['1']⟩] ++ [⟨.punct ')', third, [], [')']⟩])
        [[⟨.number "1", second, [], ['1']⟩]] := .last ⟨hone, rfl⟩ rfl
    exact ⟨_, _, rfl, rfl, hlisting⟩
  have hangles : IsTypeArguments [⟨.punct '<', 3, [], ['<']⟩, ⟨.ident "a", 4, [], ['a']⟩,
      ⟨.punct '>', 5, [], ['>']⟩] := by
    apply isTypeArguments_cons_iff.2
    constructor
    · rfl
    · rw [returnsFrom_cons_iff, returnsFrom_cons_iff, returnsFrom_nil_iff]
      decide
  have hform : ExpressionForm.Spells ⟨⟨"int", [], some [[⟨.number "1", 4, [], ['1']⟩]]⟩, []⟩
      [⟨.ident "int", 0, [], ['i', 'n', 't']⟩, ⟨.punct '(', 3, [], ['(']⟩,
        ⟨.number "1", 4, [], ['1']⟩, ⟨.punct ')', 5, [], [')']⟩] :=
    ⟨_, [], rfl, spells_of_some rfl (Or.inl rfl) (harguments 3 4 5), rfl, .nil⟩
  have hother : CallForm.Spells _ (⟨.ident "int", 0, [], ['i', 'n', 't']⟩ :: _) :=
    spells_of_some rfl (Or.inr hangles) (harguments 6 7 8)
  refine ⟨(haccepts "int(1)").2 ⟨_, _, hplain, hform⟩, ?_⟩
  exact hgeneric "int<a>(1)" "int(1)" _ _ ⟨_, []⟩ _ htyped hplain
    ⟨_, [], rfl, hother, rfl, .nil⟩ hform rfl

end TableModels.Column
