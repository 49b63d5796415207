import TableModels.Proofs.Column.Nesting

/-!
# Lists of type arguments

A list of type arguments begins with an opening angle bracket and ends where the count of opening
less closing angle brackets first returns to zero. The reader skips such a list behind a name,
and skips nothing else.
-/

namespace TableModels.Column

/-- What a token adds to the number of open angle brackets. -/
def Token.angle (token : Token) : Int :=
  if token.isPunct '<' then 1 else if token.isPunct '>' then -1 else 0

/-- The angle brackets that a run opens, less those that it closes. -/
def angles (run : List Token) : Int :=
  (run.map Token.angle).sum

/-- A list of type arguments: it begins with an opening angle bracket, and the count of angle
brackets is zero behind its last token and behind none before. -/
structure IsTypeArguments (run : List Token) : Prop where
  opens : ∃ token rest, run = token :: rest ∧ token.isPunct '<' = true
  closed : angles run = 0
  first : ∀ before, before <+: run → before ≠ [] → before ≠ run → angles before ≠ 0

@[simp] theorem angles_nil : angles [] = 0 := rfl

@[simp] theorem angles_cons (token : Token) (run : List Token) :
    angles (token :: run) = token.angle + angles run := by
  simp [angles]

/-- A run that begins inside `depth` angle brackets and returns to none of them behind its last
token, and not before. -/
structure ReturnsFrom (depth : Int) (run : List Token) : Prop where
  closed : depth + angles run = 0
  first : ∀ before, before <+: run → before ≠ run → depth + angles before ≠ 0

theorem returnsFrom_nil_iff {depth : Int} : ReturnsFrom depth [] ↔ depth = 0 := by
  constructor
  · intro h
    simpa using h.closed
  · intro h
    refine ⟨by simpa using h, ?_⟩
    intro before hbefore hne
    exact absurd (List.prefix_nil.1 hbefore) hne

/-- A return behind a token is one from the count behind that token, unless the count is zero in
front of it. -/
theorem returnsFrom_cons_iff {depth : Int} {token : Token} {run : List Token} :
    ReturnsFrom depth (token :: run) ↔ depth ≠ 0 ∧ ReturnsFrom (depth + token.angle) run := by
  constructor
  · intro h
    refine ⟨?_, ?_, ?_⟩
    · simpa using h.first [] List.nil_prefix (List.cons_ne_nil token run).symm
    · have hclosed := h.closed
      rwa [angles_cons, ← Int.add_assoc] at hclosed
    · intro inside hinside hne
      have hfirst := h.first (token :: inside) ((List.prefix_cons_inj token).2 hinside)
        fun heq => hne (List.cons.inj heq).2
      rwa [angles_cons, ← Int.add_assoc] at hfirst
  · rintro ⟨hdepth, h⟩
    refine ⟨?_, ?_⟩
    · rw [angles_cons, ← Int.add_assoc]
      exact h.closed
    · intro before hbefore hne
      rcases List.prefix_cons_iff.1 hbefore with rfl | ⟨inside, rfl, hinside⟩
      · simpa using hdepth
      · rw [angles_cons, ← Int.add_assoc]
        exact h.first inside hinside fun heq => hne (by rw [heq])

/-- What has returned already goes no further. -/
theorem returnsFrom_zero_iff {run : List Token} : ReturnsFrom 0 run ↔ run = [] := by
  cases run with
  | nil => simp [returnsFrom_nil_iff]
  | cons token run => simp [returnsFrom_cons_iff]

/-- A run that returns from inside an angle bracket has a first token. -/
theorem exists_returnsFrom_cons_iff {depth : Int} (hdepth : depth ≠ 0) {token : Token}
    {rest later : List Token} :
    (∃ run, token :: rest = run ++ later ∧ ReturnsFrom depth run) ↔
      ∃ run, rest = run ++ later ∧ ReturnsFrom (depth + token.angle) run := by
  constructor
  · rintro ⟨run, heq, h⟩
    cases run with
    | nil => exact absurd (returnsFrom_nil_iff.1 h) hdepth
    | cons first run =>
        obtain ⟨rfl, rfl⟩ := List.cons.inj heq
        exact ⟨run, rfl, (returnsFrom_cons_iff.1 h).2⟩
  · rintro ⟨run, rfl, h⟩
    exact ⟨token :: run, rfl, returnsFrom_cons_iff.2 ⟨hdepth, h⟩⟩

/-- Behind `depth` open angle brackets the reader goes on to the first return to zero. -/
theorem afterAngles?_eq_some_iff {depth : Nat} (hdepth : 0 < depth) {tokens later : List Token} :
    afterAngles? depth tokens = some later ↔
      ∃ run, tokens = run ++ later ∧ ReturnsFrom depth run := by
  have hne : (depth : Int) ≠ 0 := by omega
  induction tokens generalizing depth with
  | nil =>
      constructor
      · intro h
        cases h
      · rintro ⟨run, heq, h⟩
        obtain ⟨rfl, -⟩ := List.append_eq_nil_iff.1 heq.symm
        exact absurd (returnsFrom_nil_iff.1 h) hne
  | cons token rest ih =>
      rw [exists_returnsFrom_cons_iff hne]
      simp only [afterAngles?]
      split
      · rename_i hopen
        have hangle : token.angle = 1 := by simp [Token.angle, hopen]
        rw [hangle]
        exact ih (Nat.succ_pos depth) (by omega)
      · rename_i hopen
        split
        · rename_i hclose
          have hangle : token.angle = -1 := by simp [Token.angle, hopen, hclose]
          rw [hangle]
          split
          · rename_i hlast
            have hzero : (depth : Int) + -1 = 0 := by omega
            simp only [hzero, returnsFrom_zero_iff]
            constructor
            · intro h
              exact ⟨[], Option.some.inj h, rfl⟩
            · rintro ⟨_, rfl, rfl⟩
              rfl
          · rename_i hmore
            have hless : ((depth - 1 : Nat) : Int) = depth + -1 := by omega
            rw [← hless]
            exact ih (by omega) (by omega)
        · rename_i hclose
          have hangle : token.angle = 0 := by simp [Token.angle, hopen, hclose]
          rw [hangle, Int.add_zero]
          exact ih hdepth hne

/-- A list of type arguments is an opening angle bracket and a run that returns from it. -/
theorem isTypeArguments_cons_iff {token : Token} {run : List Token} :
    IsTypeArguments (token :: run) ↔ token.isPunct '<' = true ∧ ReturnsFrom 1 run := by
  constructor
  · rintro ⟨⟨first, rest, heq, hopen⟩, hclosed, hfirst⟩
    obtain ⟨rfl, rfl⟩ := List.cons.inj heq
    have hangle : token.angle = 1 := by simp [Token.angle, hopen]
    refine ⟨hopen, by rwa [angles_cons, hangle] at hclosed, ?_⟩
    intro before hbefore hne
    have hinner := hfirst (token :: before) ((List.prefix_cons_inj token).2 hbefore)
      (List.cons_ne_nil token before) fun h => hne (List.cons.inj h).2
    rwa [angles_cons, hangle] at hinner
  · rintro ⟨hopen, hclosed, hfirst⟩
    have hangle : token.angle = 1 := by simp [Token.angle, hopen]
    refine ⟨⟨token, run, rfl, hopen⟩, by rwa [angles_cons, hangle], ?_⟩
    intro before hbefore hne hall
    rcases List.prefix_cons_iff.1 hbefore with rfl | ⟨inside, rfl, hinside⟩
    · exact absurd rfl hne
    · rw [angles_cons, hangle]
      exact hfirst inside hinside fun h => hall (by rw [h])

/-- The tokens that may stand between a name and what follows it: none, when no angle bracket
follows, or a list of type arguments. -/
def IsSkipped (generic later : List Token) : Prop :=
  (generic = [] ∧ ∀ token rest, later = token :: rest → token.isPunct '<' = false) ∨
    IsTypeArguments generic

/-- The reader skips a list of type arguments and nothing else. -/
theorem skipTypeArguments_eq_ok_iff {tokens later : List Token} :
    skipTypeArguments tokens = .ok later ↔
      ∃ generic, tokens = generic ++ later ∧ IsSkipped generic later := by
  cases tokens with
  | nil =>
      simp only [skipTypeArguments, Except.ok.injEq]
      constructor
      · rintro rfl
        exact ⟨[], rfl, Or.inl ⟨rfl, by simp⟩⟩
      · rintro ⟨generic, heq, -⟩
        exact (List.append_eq_nil_iff.1 heq.symm).2.symm
  | cons token rest =>
      simp only [skipTypeArguments]
      split
      · rename_i hopen
        have hiff : afterAngles? 1 rest = some later ↔ _ := afterAngles?_eq_some_iff Nat.one_pos
        constructor
        · intro h
          have hafter : afterAngles? 1 rest = some later := by
            split at h <;> simp_all
          obtain ⟨run, rfl, hrun⟩ := hiff.1 hafter
          exact ⟨token :: run, rfl, Or.inr (isTypeArguments_cons_iff.2 ⟨hopen, hrun⟩)⟩
        · rintro ⟨generic, heq, ⟨rfl, hnone⟩ | hgeneric⟩
          · have hfalse := hnone token rest (by simpa using heq.symm)
            rw [hopen] at hfalse
            cases hfalse
          · cases generic with
            | nil =>
                obtain ⟨⟨_, _, hnil, _⟩, _, _⟩ := hgeneric
                cases hnil
            | cons first run =>
                simp only [List.cons_append, List.cons.injEq] at heq
                obtain ⟨rfl, rfl⟩ := heq
                rw [hiff.2 ⟨run, rfl, (isTypeArguments_cons_iff.1 hgeneric).2⟩]
      · rename_i hopen
        rw [Except.ok.injEq]
        constructor
        · rintro rfl
          refine ⟨[], rfl, Or.inl ⟨rfl, ?_⟩⟩
          intro first others heq
          simp only [List.cons.injEq] at heq
          rw [← heq.1]
          simpa using hopen
        · rintro ⟨generic, heq, ⟨rfl, -⟩ | hgeneric⟩
          · simpa using heq
          · obtain ⟨⟨first, others, rfl, hfirst⟩, -, -⟩ := hgeneric
            simp only [List.cons_append, List.cons.injEq] at heq
            rw [heq.1] at hopen
            exact absurd hfirst hopen

end TableModels.Column
