import Mathlib.Algebra.Ring.Int.Defs
import TableModels.Column.Reading

/-!
# Runs of tokens and the brackets in them

The reader takes the extent of a value from a count of brackets in which all kinds of bracket are
alike. Here the count is a function of its own, `depthAfter`, which composes over concatenation,
and a value run is described by its prefixes alone: the count never goes below zero, it ends at
zero, and no comma stands where it is zero.

## Implementation notes

`depthAfter` starts inside any number of open brackets, so that the inside of a list can be
measured without its opening bracket. `isValueRun_iff` is the only place at which the prefixes of
a run are looked at; later proofs measure runs by `depthAfter`.
-/

namespace TableModels.Column

/-- What a token adds to the number of open brackets. -/
def Token.nesting (token : Token) : Int :=
  if token.opens then 1 else if token.closes then -1 else 0

/-- The brackets that a run opens, less those that it closes. -/
def nesting (run : List Token) : Int :=
  (run.map Token.nesting).sum

/-- The tokens of one value: a nonempty run in which the count of brackets never goes below zero,
ends at zero, and is not zero in front of a comma. -/
structure IsValueRun (run : List Token) : Prop where
  nonempty : run ≠ []
  nonneg : ∀ before, before <+: run → 0 ≤ nesting before
  closed : nesting run = 0
  comma : ∀ before token after, run = before ++ token :: after → token.isPunct ',' = true →
    nesting before ≠ 0

/-- The brackets open behind a run that begins inside `depth` of them. There is no answer for a run
that closes more than is open or has a comma outside of brackets. -/
def depthAfter (depth : Nat) : List Token → Option Nat
  | [] => some depth
  | token :: rest =>
      if token.opens then
        depthAfter (depth + 1) rest
      else if token.closes then
        match depth with
        | 0 => none
        | depth + 1 => depthAfter depth rest
      else if depth = 0 ∧ token.isPunct ',' then
        none
      else
        depthAfter depth rest

/-- A value may end in front of these tokens. -/
def endsValue : List Token → Bool
  | [] => true
  | token :: _ => token.closes || token.isPunct ','

theorem isPunct_eq_true_iff {token : Token} {c : Char} :
    token.isPunct c = true ↔ token.kind = .punct c := by
  simp [Token.isPunct]

/-- A token is one punctuation character at most. -/
theorem isPunct_eq_false_of_ne {token : Token} {c d : Char} (h : token.isPunct c = true)
    (hne : c ≠ d) : token.isPunct d = false := by
  rw [isPunct_eq_true_iff] at h
  simp [Token.isPunct, h, hne]

/-- No token both opens and closes a bracket. -/
theorem opens_eq_false_of_closes {token : Token} (h : token.closes = true) :
    token.opens = false := by
  simp only [Token.closes, Bool.or_eq_true] at h
  rcases h with (h | h) | h <;> simp [Token.opens, isPunct_eq_false_of_ne h]

@[simp] theorem nesting_nil : nesting [] = 0 := rfl

@[simp] theorem nesting_cons (token : Token) (run : List Token) :
    nesting (token :: run) = token.nesting + nesting run := by
  simp [nesting]

/-! ### The count over a concatenation -/

theorem depthAfter_append (depth : Nat) (first second : List Token) :
    depthAfter depth (first ++ second) =
      (depthAfter depth first).bind fun inner => depthAfter inner second := by
  induction first generalizing depth with
  | nil => rfl
  | cons token rest ih =>
      simp only [List.cons_append, depthAfter]
      split
      · exact ih _
      · split
        · cases depth with
          | zero => rfl
          | succ depth => exact ih _
        · split
          · rfl
          · exact ih _

/-- More open brackets around a run stay open behind it. -/
theorem depthAfter_add {depth inner : Nat} {run : List Token}
    (h : depthAfter depth run = some inner) (more : Nat) :
    depthAfter (depth + more) run = some (inner + more) := by
  induction run generalizing depth with
  | nil =>
      simp only [depthAfter, Option.some.injEq] at h ⊢
      omega
  | cons token rest ih =>
      simp only [depthAfter] at h ⊢
      split at h
      · rename_i hopens
        rw [if_pos hopens, Nat.add_right_comm]
        exact ih h
      · rename_i hopens
        rw [if_neg hopens]
        split at h
        · rename_i hcloses
          rw [if_pos hcloses]
          cases depth with
          | zero => cases h
          | succ depth =>
              rw [Nat.add_right_comm]
              exact ih h
        · rename_i hcloses
          rw [if_neg hcloses]
          split at h
          · cases h
          · rename_i hcomma
            rw [if_neg fun hmore => hcomma ⟨by omega, hmore.2⟩]
            exact ih h

/-- A single token that is neither a bracket nor a comma leaves the count as it is. -/
theorem depthAfter_singleton {token : Token} (hopens : token.opens = false)
    (hcloses : token.closes = false) (hcomma : token.isPunct ',' = false) (depth : Nat) :
    depthAfter depth [token] = some depth := by
  simp [depthAfter, hopens, hcloses, hcomma]

/-! ### The run that the reader takes -/

/-- A run that can be read through is part of the run that the reader takes. -/
theorem valueRun_append_of_depthAfter {depth inner : Nat} {run : List Token}
    (h : depthAfter depth run = some inner) (rest : List Token) :
    valueRun depth (run ++ rest) =
      (run ++ (valueRun inner rest).1, (valueRun inner rest).2) := by
  induction run generalizing depth with
  | nil =>
      simp only [depthAfter, Option.some.injEq] at h
      simp [h]
  | cons token run ih =>
      simp only [depthAfter] at h
      simp only [List.cons_append, valueRun]
      split at h
      · rename_i hopens
        simp only [if_pos hopens, ih h]
      · rename_i hopens
        rw [if_neg hopens]
        split at h
        · rename_i hcloses
          rw [if_pos hcloses]
          cases depth with
          | zero => cases h
          | succ depth => simp only [ih h]
        · rename_i hcloses
          rw [if_neg hcloses]
          split at h
          · cases h
          · rename_i hcomma
            simp only [if_neg hcomma, ih h]

theorem valueRun_of_endsValue {rest : List Token} (h : endsValue rest = true) :
    valueRun 0 rest = ([], rest) := by
  cases rest with
  | nil => rfl
  | cons token rest =>
      simp only [endsValue, Bool.or_eq_true] at h
      rcases h with h | h
      · simp [valueRun, h, opens_eq_false_of_closes h]
      · have hopens : token.opens = false := by
          simp [Token.opens, isPunct_eq_false_of_ne h]
        have hcloses : token.closes = false := by
          simp [Token.closes, isPunct_eq_false_of_ne h]
        simp [valueRun, h, hopens, hcloses]

/-- A run outside of whose brackets the reader may stop is the run that it takes. -/
theorem valueRun_append_of_closed {run rest : List Token} (h : depthAfter 0 run = some 0)
    (hrest : endsValue rest = true) : valueRun 0 (run ++ rest) = (run, rest) := by
  rw [valueRun_append_of_depthAfter h, valueRun_of_endsValue hrest, List.append_nil]

/-- The reader stops where a value may end. -/
theorem endsValue_valueRun (depth : Nat) (tokens : List Token) :
    endsValue (valueRun depth tokens).2 = true := by
  fun_induction valueRun depth tokens <;> simp_all [endsValue]

/-- When the reader stops in front of a token, it has left all brackets. -/
theorem depthAfter_valueRun {depth : Nat} {tokens run later : List Token} {token : Token}
    (h : valueRun depth tokens = (run, token :: later)) : depthAfter depth run = some 0 := by
  induction tokens generalizing depth run with
  | nil => simp [valueRun] at h
  | cons first rest ih =>
      simp only [valueRun] at h
      split at h
      · rename_i hopens
        simp only [Prod.mk.injEq] at h
        rw [← h.1]
        simp only [depthAfter, if_pos hopens]
        exact ih (Prod.ext rfl h.2)
      · rename_i hopens
        split at h
        · rename_i hcloses
          cases depth with
          | zero =>
              simp only [Prod.mk.injEq] at h
              rw [← h.1]
              rfl
          | succ depth =>
              simp only [Prod.mk.injEq] at h
              rw [← h.1]
              simp only [depthAfter, if_neg hopens, if_pos hcloses]
              exact ih (Prod.ext rfl h.2)
        · rename_i hcloses
          split at h
          · rename_i hcomma
            simp only [Prod.mk.injEq] at h
            rw [← h.1, hcomma.1]
            rfl
          · rename_i hcomma
            simp only [Prod.mk.injEq] at h
            rw [← h.1]
            simp only [depthAfter, if_neg hopens, if_neg hcloses, if_neg hcomma]
            exact ih (Prod.ext rfl h.2)

/-! ### Value runs by their prefixes -/

/-- A single token that closes no bracket adds to the count what it opens. -/
theorem nesting_of_opens {token : Token} (h : token.opens = true) : token.nesting = 1 := by
  simp [Token.nesting, h]

theorem nesting_of_closes {token : Token} (hopens : token.opens = false)
    (h : token.closes = true) : token.nesting = -1 := by
  simp [Token.nesting, hopens, h]

theorem nesting_of_plain {token : Token} (hopens : token.opens = false)
    (h : token.closes = false) : token.nesting = 0 := by
  simp [Token.nesting, hopens, h]

/-- What the prefixes of a run say of it when it begins inside `depth` brackets and ends inside
`inner` of them. -/
structure CountsTo (depth inner : Int) (run : List Token) : Prop where
  nonneg : ∀ before, before <+: run → 0 ≤ depth + nesting before
  ends : depth + nesting run = inner
  comma : ∀ before token after, run = before ++ token :: after → token.isPunct ',' = true →
    depth + nesting before ≠ 0

theorem countsTo_nil_iff {depth inner : Int} :
    CountsTo depth inner [] ↔ 0 ≤ depth ∧ depth = inner := by
  constructor
  · intro h
    have hnonneg := h.nonneg [] List.nil_prefix
    have hends := h.ends
    rw [nesting_nil, Int.add_zero] at hnonneg hends
    exact ⟨hnonneg, hends⟩
  · rintro ⟨hnonneg, hends⟩
    refine ⟨?_, by simpa using hends, by simp⟩
    intro before hbefore
    rw [List.prefix_nil.1 hbefore, nesting_nil, Int.add_zero]
    exact hnonneg

/-- The prefixes of a run are the empty one and those of what follows its first token, with that
token in front. -/
theorem countsTo_cons_iff {depth inner : Int} {first : Token} {rest : List Token} :
    CountsTo depth inner (first :: rest) ↔
      0 ≤ depth ∧ (first.isPunct ',' = true → depth ≠ 0) ∧
        CountsTo (depth + first.nesting) inner rest := by
  constructor
  · intro h
    refine ⟨?_, ?_, ?_, ?_, ?_⟩
    · simpa using h.nonneg [] List.nil_prefix
    · intro hfirst
      simpa using h.comma [] first rest rfl hfirst
    · intro inside hinside
      have hle := h.nonneg (first :: inside) ((List.prefix_cons_inj first).2 hinside)
      rwa [nesting_cons, ← Int.add_assoc] at hle
    · have hends := h.ends
      rwa [nesting_cons, ← Int.add_assoc] at hends
    · intro inside token after heq htoken
      have hne := h.comma (first :: inside) token after (by rw [heq]; rfl) htoken
      rwa [nesting_cons, ← Int.add_assoc] at hne
  · rintro ⟨hdepth, hfirst, h⟩
    refine ⟨?_, ?_, ?_⟩
    · intro before hbefore
      rcases List.prefix_cons_iff.1 hbefore with rfl | ⟨inside, rfl, hinside⟩
      · simpa using hdepth
      · rw [nesting_cons, ← Int.add_assoc]
        exact h.nonneg inside hinside
    · rw [nesting_cons, ← Int.add_assoc]
      exact h.ends
    · intro before token after heq htoken
      cases before with
      | nil =>
          obtain ⟨rfl, -⟩ := List.cons.inj heq
          simpa using hfirst htoken
      | cons other inside =>
          obtain ⟨rfl, rfl⟩ := List.cons.inj heq
          rw [nesting_cons, ← Int.add_assoc]
          exact h.comma inside token after rfl htoken

theorem CountsTo.depth_nonneg {depth inner : Int} {run : List Token}
    (h : CountsTo depth inner run) : 0 ≤ depth := by
  simpa using h.nonneg [] List.nil_prefix

/-- The count of open brackets behind a run, by what it is behind the prefixes of the run. -/
theorem depthAfter_eq_some_iff {depth inner : Nat} {run : List Token} :
    depthAfter depth run = some inner ↔ CountsTo depth inner run := by
  induction run generalizing depth with
  | nil =>
      rw [depthAfter, Option.some.injEq, countsTo_nil_iff]
      omega
  | cons first rest ih =>
      rw [countsTo_cons_iff]
      cases hopens : first.opens with
      | true =>
          have hcomma : first.isPunct ',' = true → (depth : Int) ≠ 0 := by
            intro hcomma
            simp [Token.opens, isPunct_eq_false_of_ne hcomma] at hopens
          simp only [depthAfter, if_pos hopens]
          rw [ih, nesting_of_opens hopens]
          constructor
          · intro h
            exact ⟨Int.natCast_nonneg depth, hcomma, h⟩
          · rintro ⟨-, -, h⟩
            exact h
      | false =>
          cases hcloses : first.closes with
          | true =>
              have hcomma : first.isPunct ',' = true → (depth : Int) ≠ 0 := by
                intro hcomma
                simp [Token.closes, isPunct_eq_false_of_ne hcomma] at hcloses
              simp only [depthAfter, hopens, hcloses, Bool.false_eq_true, ↓reduceIte,
                nesting_of_closes hopens hcloses]
              cases depth with
              | zero =>
                  constructor
                  · intro h
                    cases h
                  · rintro ⟨-, -, h⟩
                    have hnonneg := h.depth_nonneg
                    omega
              | succ depth =>
                  have hdepth : ((depth + 1 : Nat) : Int) + -1 = depth := by omega
                  rw [ih, hdepth]
                  constructor
                  · intro h
                    exact ⟨Int.natCast_nonneg (depth + 1), hcomma, h⟩
                  · rintro ⟨-, -, h⟩
                    exact h
          | false =>
              simp only [depthAfter, hopens, hcloses, Bool.false_eq_true, ↓reduceIte,
                nesting_of_plain hopens hcloses, Int.add_zero]
              split
              · rename_i hstop
                constructor
                · intro h
                  cases h
                · rintro ⟨-, hcomma, -⟩
                  exact absurd (by rw [hstop.1]; rfl) (hcomma hstop.2)
              · rename_i hgo
                rw [ih]
                constructor
                · intro h
                  refine ⟨Int.natCast_nonneg depth, ?_, h⟩
                  intro hcomma hdepth
                  exact hgo ⟨Int.natCast_eq_zero.1 hdepth, hcomma⟩
                · rintro ⟨-, -, h⟩
                  exact h

/-- The value runs are the nonempty runs that leave no bracket open and have no comma outside of
brackets. -/
theorem isValueRun_iff {run : List Token} :
    IsValueRun run ↔ run ≠ [] ∧ depthAfter 0 run = some 0 := by
  have hcounts : depthAfter 0 run = some 0 ↔ CountsTo 0 0 run := depthAfter_eq_some_iff
  rw [hcounts]
  constructor
  · intro h
    refine ⟨h.nonempty, ?_, ?_, ?_⟩
    · simpa using h.nonneg
    · simpa using h.closed
    · simpa using h.comma
  · rintro ⟨hne, h⟩
    refine ⟨hne, ?_, ?_, ?_⟩
    · simpa using h.nonneg
    · simpa using h.ends
    · simpa using h.comma

/-- A token that is no punctuation is a value run by itself. -/
theorem isValueRun_singleton {token : Token} (h : ∀ c, token.isPunct c = false) :
    IsValueRun [token] := by
  have hopens : token.opens = false := by simp [Token.opens, h]
  have hcloses : token.closes = false := by simp [Token.closes, h]
  exact isValueRun_iff.2 ⟨by simp, depthAfter_singleton hopens hcloses (h ',') 0⟩

/-- In front of a token the reader stops behind a value run or at once. -/
theorem isValueRun_of_valueRun {tokens run later : List Token} {first token : Token}
    (h : valueRun 0 tokens = (first :: run, token :: later)) : IsValueRun (first :: run) :=
  isValueRun_iff.2 ⟨List.cons_ne_nil first run, depthAfter_valueRun h⟩

/-- The reader takes exactly a value run that stands where a value may end. -/
theorem IsValueRun.valueRun_append {run rest : List Token} (h : IsValueRun run)
    (hrest : endsValue rest = true) : valueRun 0 (run ++ rest) = (run, rest) :=
  valueRun_append_of_closed (isValueRun_iff.1 h).2 hrest

end TableModels.Column
