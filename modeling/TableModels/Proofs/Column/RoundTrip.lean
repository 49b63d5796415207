import TableModels.Proofs.Column.Printing

/-!
# Printed expressions are read back

An expression that the reader answers is printed as a text of which the reader answers the same
expression. The names and the values of the expression were read from a text, so each of them is
rendered by what is printed for it, and points and parentheses put the renderings together.
-/

namespace TableModels.Column

/-- A call whose name and arguments are read from their printed texts. -/
structure Call.IsPrintable (call : Call) : Prop where
  name : ∃ (token : Token) (start : Nat) (follow : List Char),
    token.IsReadAt start follow ∧ token.kind = .ident call.name
  args : ∀ arg ∈ call.args, IsRendered IsItem arg.print arg

/-! ### Calls that have been read -/

/-- A call that is read from a text can be printed. -/
theorem CallForm.Spells.isPrintable {form : CallForm} {tokens : List Token} (h : form.Spells tokens)
    {start : Nat} {follow : List Char} (hscans : Scans start tokens follow) :
    form.call.IsPrintable := by
  constructor
  case name =>
    obtain ⟨name, used, rfl, hkind, -, -⟩ := h
    exact ⟨name, _, _, hscans.1, hkind⟩
  case args =>
    intro arg harg
    obtain ⟨run, hrun, rfl⟩ := List.mem_map.1 harg
    cases hruns : form.arguments with
    | none => simp [hruns] at hrun
    | some runs =>
        rw [hruns] at hrun
        obtain ⟨hvalue, start', follow', hread⟩ := h.exists_scans hscans hruns run hrun
        exact isRendered_of_isItem hread ⟨hvalue, rfl⟩

/-- Members that are read from a text can be printed. -/
theorem SpellsChain.isPrintable {forms : List CallForm} {tokens : List Token}
    (h : SpellsChain forms tokens) {start : Nat} {follow : List Char}
    (hscans : Scans start tokens follow) : ∀ form ∈ forms, form.call.IsPrintable := by
  intro form hform
  obtain ⟨member, start', follow', hmember, hread⟩ := h.exists_scans hscans form hform
  exact hmember.isPrintable hread

/-! ### Printed calls -/

/-- The printed text of a call is cut into tokens of a call form. -/
theorem Call.IsPrintable.exists_spells {call : Call} (h : call.IsPrintable) (start : Nat) :
    ∃ form tokens, CallForm.Spells form tokens ∧ form.call = call ∧
      form.arguments.isSome = true ∧ spread tokens = call.print ∧
      ∀ follow, Scans start tokens follow := by
  obtain ⟨token, start', follow', hread, hkind⟩ := h.name
  have hopen : IsSeparator '(' := by decide +kernel
  have hstop : IsDelimiter '(' := by decide +kernel
  have hclose : IsSeparator ')' := by decide +kernel
  have hend : IsDelimiter ')' := by decide +kernel
  let name := tokenAt (.ident call.name) call.name.toList start []
  let parenthesis := punctAt '(' name.stop []
  obtain ⟨inside, hinside, htext, hscans⟩ :=
    exists_isListing hclose hend h.args parenthesis.stop isBlank_nil
  obtain ⟨runs, hruns, hargs⟩ :
      ∃ runs, IsListing ')' IsArgument inside runs ∧ call.args = runs.map runValue :=
    hinside.exists_map fun hitem => ⟨_, ⟨hitem.1, rfl⟩, hitem.2⟩
  have hspells : CallForm.Spells ⟨call.name, [], some runs⟩ (name :: parenthesis :: inside) :=
    spells_of_some rfl (Or.inl rfl) ⟨parenthesis, inside, rfl, isPunct_punctAt _ _ _, hruns⟩
  refine ⟨⟨call.name, [], some runs⟩, name :: parenthesis :: inside, hspells, ?_, rfl, ?_, ?_⟩
  · rw [CallForm.call, Option.getD_some, ← hargs]
  · simp [htext, name, parenthesis, punctAt, Call.print]
  · intro follow
    exact ⟨hread.isReadAt_name hkind isBlank_nil (isDelimited_punctAt hstop _ inside follow) start,
      isReadAt_punctAt hopen isBlank_nil _ _, hscans follow⟩

/-- The printed texts of calls, with a point in front of each, are cut into members. -/
theorem exists_spellsChain {calls : List Call} (h : ∀ call ∈ calls, call.IsPrintable)
    (start : Nat) :
    ∃ forms tokens, SpellsChain forms tokens ∧ forms.map CallForm.call = calls ∧
      spread tokens = calls.flatMap (fun call => '.' :: call.print) ∧
      ∀ follow, Scans start tokens follow := by
  induction calls generalizing start with
  | nil => exact ⟨[], [], .nil, rfl, rfl, fun _ => trivial⟩
  | cons call rest ih =>
      have hpoint : IsSeparator '.' := by decide +kernel
      let point := punctAt '.' start []
      obtain ⟨form, member, hmember, rfl, -, htext, hread⟩ :=
        (h call List.mem_cons_self).exists_spells point.stop
      obtain ⟨forms, tokens, hforms, rfl, hrest, hscans⟩ :=
        ih (fun other hother => h other (List.mem_cons_of_mem _ hother))
          (point.stop + byteLength (spread member))
      refine ⟨form :: forms, point :: (member ++ tokens),
        .cons (isPunct_punctAt _ _ _) hmember hforms, rfl, ?_, ?_⟩
      · simp [htext, hrest, point, punctAt]
      · intro follow
        exact ⟨isReadAt_punctAt hpoint isBlank_nil _ _, scans_append_iff.2 ⟨hread _, hscans follow⟩⟩

theorem toList_print (expr : Expression) :
    expr.print.toList = expr.base.print ++ expr.chain.flatMap fun call => '.' :: call.print := by
  rw [Expression.print, String.toList_ofList]
  generalize expr.base = first
  induction expr.chain generalizing first with
  | nil => simp [List.intercalate]
  | cons next rest ih =>
      have hrest := ih next
      simp only [List.intercalate, List.map_cons, List.intersperse_cons_cons, List.flatten_cons,
        List.flatMap_cons, List.cons_append, List.nil_append] at hrest ⊢
      rw [hrest]

/-- What the reader answers is printed as a text of which the reader answers the same. -/
theorem parse_print {text : String} {expr : Expression} (h : parse text = .ok expr) :
    parse expr.print = .ok expr := by
  obtain ⟨tokens, form, htokens, ⟨base, chain, rfl, hbase, -, hchain⟩, rfl⟩ := parse_eq_ok_iff.1 h
  obtain ⟨blank, -, -, hscans⟩ := tokenize_eq_ok_iff.1 htokens
  obtain ⟨hfirst, hrest⟩ := scans_append_iff.1 hscans
  obtain ⟨baseForm, baseTokens, hbaseForm, hbaseCall, hsome, hbaseText, hbaseScans⟩ :=
    (hbase.isPrintable hfirst).exists_spells 0
  have hcalls : ∀ call ∈ form.chain.map CallForm.call, call.IsPrintable := by
    intro call hcall
    obtain ⟨member, hmember, rfl⟩ := List.mem_map.1 hcall
    exact hchain.isPrintable hrest member hmember
  obtain ⟨forms, chainTokens, hforms, hchainCalls, hchainText, hchainScans⟩ :=
    exists_spellsChain hcalls (byteLength (spread baseTokens))
  refine parse_eq_ok_iff.2 ⟨baseTokens ++ chainTokens, ⟨baseForm, forms⟩, ?_,
    ⟨_, _, rfl, hbaseForm, hsome, hforms⟩, ?_⟩
  · refine tokenize_eq_ok_iff.2 ⟨[], ?_, isBlank_nil, ?_⟩
    · rw [toList_print, spread_append, hbaseText, hchainText, List.append_nil]
      rfl
    · rw [scans_append_iff, Nat.zero_add]
      exact ⟨hbaseScans _, hchainScans _⟩
  · rw [ExpressionForm.expression, ExpressionForm.expression, hbaseCall, hchainCalls]

theorem parse_print_varchar :
    ∃ expr, parse "varchar('email', [1_0, -2], x => 1).notNull()" = .ok expr ∧
      parse expr.print = .ok expr := by
  obtain ⟨expr, hexpr⟩ : ∃ expr, parse "varchar('email', [1_0, -2], x => 1).notNull()" = .ok expr :=
    exists_eq_ok_of_isOk (by decide +kernel)
  exact ⟨expr, hexpr, parse_print hexpr⟩

end TableModels.Column
