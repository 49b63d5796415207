import TableModels.Proofs.Column.Denotation

/-!
# The grammar of column expressions

A column expression is a name with its arguments, followed by any number of members. A member is a
point and a name, with arguments or without them. Behind every name a list of type arguments may
stand. A form is such an expression with the runs of tokens that it is made of; it spells tokens,
and it denotes an expression, in which the type arguments do not occur. `parse_eq_ok_iff` says that
the reader accepts the forms and nothing else, and that it answers what they denote.
-/

namespace TableModels.Column

/-- A name with its type arguments, none when they are missing, and with the runs of its arguments
if there is a list of arguments. -/
structure CallForm where
  name : String
  typeArguments : List Token
  arguments : Option (List (List Token))

/-- A call and the members behind it. -/
structure ExpressionForm where
  base : CallForm
  chain : List CallForm

/-- The tokens of an argument, which is kept as it is. -/
def IsArgument (run argument : List Token) : Prop :=
  IsValueRun run ∧ argument = run

/-- A list of arguments between parentheses, with the runs of tokens that are its values. -/
def IsArguments (tokens : List Token) (runs : List (List Token)) : Prop :=
  ∃ parenthesis inside, tokens = parenthesis :: inside ∧ parenthesis.isPunct '(' = true ∧
    IsListing ')' IsArgument inside runs

namespace CallForm

/-- The tokens are the name, its type arguments if it has any, and its arguments. -/
def Spells (form : CallForm) (tokens : List Token) : Prop :=
  ∃ name arguments, tokens = name :: (form.typeArguments ++ arguments) ∧
    name.kind = .ident form.name ∧
    (form.typeArguments = [] ∨ IsTypeArguments form.typeArguments) ∧
    match form.arguments with
    | none => arguments = []
    | some runs => IsArguments arguments runs

/-- The call that a form denotes. -/
def call (form : CallForm) : Call :=
  ⟨form.name, (form.arguments.getD []).map runValue⟩

end CallForm

/-- The tokens are the forms in order, with a point in front of each. -/
inductive SpellsChain : List CallForm → List Token → Prop
  | nil : SpellsChain [] []
  | cons {form : CallForm} {forms : List CallForm} {point : Token} {member rest : List Token}
      (hpoint : point.isPunct '.' = true) (hmember : form.Spells member)
      (hrest : SpellsChain forms rest) : SpellsChain (form :: forms) (point :: (member ++ rest))

namespace ExpressionForm

/-- The tokens are a call with arguments and the members behind it. -/
def Spells (form : ExpressionForm) (tokens : List Token) : Prop :=
  ∃ base chain, tokens = base ++ chain ∧ form.base.Spells base ∧
    form.base.arguments.isSome = true ∧ SpellsChain form.chain chain

/-- The expression that a form denotes. -/
def expression (form : ExpressionForm) : Expression :=
  ⟨form.base.call, form.chain.map CallForm.call⟩

end ExpressionForm

/-! ### Arguments and names -/

/-- The reader takes the values of a list of arguments. -/
theorem arguments_of_isListing {stop : Nat} {inside : List Token} {runs : List (List Token)}
    (h : IsListing ')' IsArgument inside runs) (rest : List Token) :
    arguments stop (inside ++ rest) = .ok (runs.map runValue, rest) := by
  apply arguments_eq_ok_iff.2
  refine ⟨inside, rfl, h.map ?_⟩
  rintro run argument ⟨hrun, rfl⟩
  exact ⟨hrun, rfl⟩

/-- The reader takes a list of arguments as the runs of its values. -/
theorem arguments_eq_ok_iff_runs {stop : Nat} {parenthesis : Token} {tokens after : List Token}
    {values : List Value} (hparenthesis : parenthesis.isPunct '(' = true) :
    arguments stop tokens = .ok (values, after) ↔
      ∃ used runs, parenthesis :: tokens = used ++ after ∧ IsArguments used runs ∧
        values = runs.map runValue := by
  constructor
  · intro h
    obtain ⟨inside, rfl, hlisting⟩ := arguments_eq_ok_iff.1 h
    obtain ⟨runs, hruns, rfl⟩ :
        ∃ runs, IsListing ')' IsArgument inside runs ∧ values = runs.map runValue :=
      hlisting.exists_map fun hitem => ⟨_, ⟨hitem.1, rfl⟩, hitem.2⟩
    exact ⟨parenthesis :: inside, runs, rfl, ⟨parenthesis, inside, rfl, hparenthesis, hruns⟩, rfl⟩
  · rintro ⟨used, runs, heq, ⟨first, inside, rfl, -, hruns⟩, rfl⟩
    obtain ⟨-, rfl⟩ := List.cons.inj heq
    exact arguments_of_isListing hruns after

theorem callName_eq_ok_iff {stop : Nat} {tokens later : List Token} {name : String} :
    callName stop tokens = .ok (name, later) ↔
      ∃ token generic, tokens = token :: (generic ++ later) ∧ token.kind = .ident name ∧
        IsSkipped generic later := by
  constructor
  · intro h
    unfold callName at h
    split at h
    · rename_i name' offset gap text rest
      split at h
      · rename_i later' hskip
        simp only [Except.ok.injEq, Prod.mk.injEq] at h
        obtain ⟨rfl, rfl⟩ := h
        obtain ⟨generic, rfl, hgeneric⟩ := skipTypeArguments_eq_ok_iff.1 hskip
        exact ⟨_, generic, rfl, rfl, hgeneric⟩
      · cases h
    · cases h
  · rintro ⟨⟨kind, offset, gap, text⟩, generic, rfl, rfl, hgeneric⟩
    rw [callName, skipTypeArguments_eq_ok_iff.2 ⟨generic, rfl, hgeneric⟩]

/-- The reader takes a name with its type arguments where no other angle bracket follows. -/
theorem callName_of_typeArguments {stop : Nat} {token : Token} {label : String}
    {generic later : List Token} (hkind : token.kind = .ident label)
    (hgeneric : generic = [] ∨ IsTypeArguments generic)
    (hlater : ∀ next rest, later = next :: rest → next.isPunct '<' = false) :
    callName stop (token :: (generic ++ later)) = .ok (label, later) := by
  apply callName_eq_ok_iff.2
  refine ⟨token, generic, rfl, hkind, ?_⟩
  rcases hgeneric with rfl | hgeneric
  · exact Or.inl ⟨rfl, hlater⟩
  · exact Or.inr hgeneric

/-- The reader takes a name with its type arguments in front of a list of arguments. -/
theorem callName_of_parenthesis {stop : Nat} {token parenthesis : Token} {label : String}
    {generic later : List Token} (hkind : token.kind = .ident label)
    (hgeneric : generic = [] ∨ IsTypeArguments generic)
    (hparenthesis : parenthesis.isPunct '(' = true) :
    callName stop (token :: (generic ++ parenthesis :: later)) =
      .ok (label, parenthesis :: later) := by
  apply callName_of_typeArguments hkind hgeneric
  intro next rest heq
  simp only [List.cons.injEq] at heq
  rw [← heq.1]
  exact isPunct_eq_false_of_ne hparenthesis (by decide)

theorem typeArguments_of_isSkipped {generic later : List Token} (h : IsSkipped generic later) :
    generic = [] ∨ IsTypeArguments generic := by
  rcases h with ⟨rfl, -⟩ | h
  · exact Or.inl rfl
  · exact Or.inr h

/-! ### Members -/

/-- A member without arguments. -/
theorem spells_of_none {name : Token} {generic : List Token} {label : String}
    (hkind : name.kind = .ident label) (hgeneric : generic = [] ∨ IsTypeArguments generic) :
    CallForm.Spells ⟨label, generic, none⟩ (name :: generic) :=
  ⟨name, [], by simp, hkind, hgeneric, rfl⟩

/-- A call or a member with arguments. -/
theorem spells_of_some {name : Token} {generic used : List Token} {label : String}
    {runs : List (List Token)} (hkind : name.kind = .ident label)
    (hgeneric : generic = [] ∨ IsTypeArguments generic) (hused : IsArguments used runs) :
    CallForm.Spells ⟨label, generic, some runs⟩ (name :: (generic ++ used)) :=
  ⟨name, used, rfl, hkind, hgeneric, hused⟩

theorem chainedCalls_of_arguments {stop : Nat} {point parenthesis : Token}
    {rest later after : List Token} {name : String} {values : List Value} {calls : List Call}
    (hpoint : point.isPunct '.' = true)
    (hname : callName stop rest = .ok (name, parenthesis :: later))
    (hparenthesis : parenthesis.isPunct '(' = true)
    (hvalues : arguments stop later = .ok (values, after))
    (hcalls : chainedCalls stop after = .ok (calls, [])) :
    chainedCalls stop (point :: rest) = .ok (⟨name, values⟩ :: calls, []) := by
  rw [chainedCalls.eq_def]
  simp only [hpoint, ↓reduceIte]
  split <;> rename_i hread <;> rw [hname] at hread
  · cases hread
  · cases hread
  · cases hread
    rw [if_pos hparenthesis]
    split <;> rename_i hread <;> rw [hvalues] at hread
    · cases hread
    · cases hread
      rw [hcalls]

theorem chainedCalls_of_bare {stop : Nat} {point : Token} {rest later : List Token} {name : String}
    {calls : List Call} (hpoint : point.isPunct '.' = true)
    (hname : callName stop rest = .ok (name, later))
    (hnext : ∀ next others, later = next :: others → next.isPunct '(' = false)
    (hcalls : chainedCalls stop later = .ok (calls, [])) :
    chainedCalls stop (point :: rest) = .ok (⟨name, []⟩ :: calls, []) := by
  rw [chainedCalls.eq_def]
  simp only [hpoint, ↓reduceIte]
  split <;> rename_i hread <;> rw [hname] at hread
  · cases hread
  · cases hread
    rw [chainedCalls.eq_def] at hcalls
    cases hcalls
    rfl
  · cases hread
    rw [if_neg (by simp [hnext _ _ rfl]), hcalls]

/-- The tokens of members are over or begin with a point. -/
theorem SpellsChain.isPunct_eq_false {forms : List CallForm} {first : Token} {rest : List Token}
    (h : SpellsChain forms (first :: rest)) {c : Char} (hne : '.' ≠ c) :
    first.isPunct c = false := by
  cases h with
  | cons hpoint _ _ => exact isPunct_eq_false_of_ne hpoint hne

/-- Where the reader goes on with members, the tokens are a point, a member and those at which it
goes on. -/
theorem exists_member_of_chainedCalls {stop : Nat} {point : Token} {rest : List Token}
    {calls : List Call} (h : chainedCalls stop (point :: rest) = .ok (calls, [])) :
    ∃ form member after others, point.isPunct '.' = true ∧ rest = member ++ after ∧
      CallForm.Spells form member ∧ chainedCalls stop after = .ok (others, []) ∧
      calls = form.call :: others := by
  rw [chainedCalls.eq_def] at h
  simp only at h
  split at h
  · rename_i hpoint
    split at h
    · cases h
    · rename_i name hname
      cases h
      obtain ⟨token, generic, rfl, hkind, hgeneric⟩ := callName_eq_ok_iff.1 hname
      have hmember := spells_of_none hkind (typeArguments_of_isSkipped hgeneric)
      have hend : chainedCalls stop [] = .ok ([], []) := by rw [chainedCalls.eq_def]
      exact ⟨_, token :: generic, [], [], hpoint, by simp, hmember, hend, rfl⟩
    · rename_i name next later hname
      obtain ⟨token, generic, rfl, hkind, hgeneric⟩ := callName_eq_ok_iff.1 hname
      have htype := typeArguments_of_isSkipped hgeneric
      split at h
      · rename_i hparenthesis
        split at h
        · cases h
        · rename_i values after hvalues
          obtain ⟨used, runs, heq, hused, rfl⟩ :=
            (arguments_eq_ok_iff_runs hparenthesis).1 hvalues
          split at h
          · cases h
          · rename_i others remaining hothers
            cases h
            have hmember := spells_of_some hkind htype hused
            exact ⟨_, token :: (generic ++ used), after, others, hpoint, by simp [heq], hmember,
              hothers, rfl⟩
      · split at h
        · cases h
        · rename_i others remaining hothers
          cases h
          have hmember := spells_of_none hkind htype
          exact ⟨_, token :: generic, next :: later, others, hpoint, rfl, hmember, hothers, rfl⟩
  · cases h

/-- Where the reader goes on with members to the end of the tokens, the tokens are members. -/
theorem spellsChain_of_chainedCalls {stop : Nat} {tokens : List Token} {calls : List Call}
    (h : chainedCalls stop tokens = .ok (calls, [])) :
    ∃ forms, SpellsChain forms tokens ∧ calls = forms.map CallForm.call := by
  -- the tokens behind a member are no part of the list that the members are read from
  induction hlength : tokens.length using Nat.strongRecOn generalizing tokens calls with
  | ind length ih =>
      subst hlength
      cases tokens with
      | nil =>
          rw [chainedCalls.eq_def] at h
          cases h
          exact ⟨[], .nil, rfl⟩
      | cons point rest =>
          obtain ⟨form, member, after, others, hpoint, rfl, hmember, hothers, rfl⟩ :=
            exists_member_of_chainedCalls h
          have hlt : after.length < (point :: (member ++ after)).length := by
            simp only [List.length_cons, List.length_append]
            omega
          obtain ⟨forms, hforms, rfl⟩ := ih after.length hlt hothers rfl
          exact ⟨form :: forms, .cons hpoint hmember hforms, rfl⟩

/-- The reader goes on with members to the end of the tokens. -/
theorem SpellsChain.chainedCalls_eq {stop : Nat} {tokens : List Token} {forms : List CallForm}
    (h : SpellsChain forms tokens) :
    chainedCalls stop tokens = .ok (forms.map CallForm.call, []) := by
  induction h with
  | nil =>
      rw [chainedCalls.eq_def]
      rfl
  | @cons form forms point member rest hpoint hmember hrest ih =>
      obtain ⟨name, generic, arguments⟩ := form
      obtain ⟨token, used, rfl, hkind, hgeneric, hused⟩ := hmember
      rw [List.cons_append, List.append_assoc]
      cases arguments with
      | none =>
          obtain rfl : used = [] := hused
          have hname : callName stop (token :: (generic ++ rest)) = .ok (name, rest) := by
            apply callName_of_typeArguments hkind hgeneric
            rintro first later rfl
            exact hrest.isPunct_eq_false (by decide)
          apply chainedCalls_of_bare hpoint hname
          · rintro first later rfl
            exact hrest.isPunct_eq_false (by decide)
          · exact ih
      | some runs =>
          obtain ⟨parenthesis, inside, rfl, hparenthesis, hruns⟩ := hused
          apply chainedCalls_of_arguments hpoint
          · exact callName_of_parenthesis hkind hgeneric hparenthesis
          · exact hparenthesis
          · exact arguments_of_isListing hruns rest
          · exact ih

/-! ### Whole expressions -/

/-- The reader reads tokens to their end as an expression exactly when a form spells them. -/
theorem expression_eq_ok_iff {stop : Nat} {tokens : List Token} {expr : Expression} :
    expression stop tokens = .ok (expr, []) ↔
      ∃ form : ExpressionForm, form.Spells tokens ∧ expr = form.expression := by
  constructor
  · intro h
    unfold expression at h
    split at h
    · cases h
    · cases h
    · rename_i name parenthesis later hname
      obtain ⟨token, generic, rfl, hkind, hgeneric⟩ := callName_eq_ok_iff.1 hname
      split at h
      · rename_i hparenthesis
        split at h
        · cases h
        · rename_i values after hvalues
          obtain ⟨used, runs, heq, hused, rfl⟩ :=
            (arguments_eq_ok_iff_runs hparenthesis).1 hvalues
          split at h
          · cases h
          · rename_i calls remaining hcalls
            simp only [Except.ok.injEq, Prod.mk.injEq] at h
            obtain ⟨rfl, rfl⟩ := h
            obtain ⟨forms, hforms, rfl⟩ := spellsChain_of_chainedCalls hcalls
            have hbase := spells_of_some hkind (typeArguments_of_isSkipped hgeneric) hused
            exact ⟨⟨⟨name, generic, some runs⟩, forms⟩,
              ⟨_, after, by simp [heq], hbase, rfl, hforms⟩, rfl⟩
      · cases h
  · rintro ⟨⟨⟨name, generic, arguments⟩, forms⟩, ⟨base, chain, rfl, hbase, hsome, hforms⟩, rfl⟩
    obtain ⟨token, used, rfl, hkind, hgeneric, hused⟩ := hbase
    cases arguments with
    | none => cases hsome
    | some runs =>
        obtain ⟨parenthesis, inside, rfl, hparenthesis, hruns⟩ := hused
        have hname : callName stop (token :: (generic ++ (parenthesis :: inside ++ chain))) =
            .ok (name, parenthesis :: (inside ++ chain)) :=
          callName_of_parenthesis hkind hgeneric hparenthesis
        have hvalues : Column.arguments stop (inside ++ chain) = .ok (runs.map runValue, chain) :=
          arguments_of_isListing hruns chain
        have hcalls : chainedCalls stop chain = .ok (forms.map CallForm.call, []) :=
          hforms.chainedCalls_eq
        rw [List.cons_append, List.append_assoc, expression, hname]
        simp only [hparenthesis, ↓reduceIte, hvalues, hcalls]
        rfl

/-- The reader answers what the form of a text denotes, and it refuses a text without a form. -/
theorem parse_eq_ok_iff {text : String} {expr : Expression} :
    parse text = .ok expr ↔
      ∃ tokens form, tokenize text.toList = .ok tokens ∧ ExpressionForm.Spells form tokens ∧
        expr = form.expression := by
  unfold parse
  constructor
  · intro h
    split at h
    · cases h
    · cases h
    · rename_i tokens hne htokens
      split at h
      · cases h
      · rename_i expr' hexpr
        simp only [Except.ok.injEq] at h
        obtain rfl := h
        obtain ⟨form, hform, rfl⟩ := expression_eq_ok_iff.1 hexpr
        exact ⟨tokens, form, htokens, hform, rfl⟩
      · cases h
  · rintro ⟨tokens, form, htokens, hform, rfl⟩
    have hexpr : expression text.utf8ByteSize tokens = .ok (form.expression, []) :=
      expression_eq_ok_iff.2 ⟨form, hform, rfl⟩
    rw [htokens]
    cases tokens with
    | nil =>
        obtain ⟨base, chain, heq, ⟨token, used, rfl, -⟩, -, -⟩ := hform
        cases heq
    | cons token rest => simp only [hexpr]

end TableModels.Column
