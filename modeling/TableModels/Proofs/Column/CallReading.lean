import TableModels.Proofs.Column.Grammar

/-!
# Reading calls

How the readers of calls go on behind one call, and that what they leave is the end of the tokens
that they are given.
-/

namespace TableModels.Column

variable {stop : Nat} {later after : List Token}

/-! ### What follows a call -/

/-- The arguments of a call whose name is in front of the tokens, and the tokens behind them. A call
without parentheses has none. -/
def argumentsBehind (stop : Nat) : List Token → Except ExpressionError (List Value × List Token)
  | [] => .ok ([], [])
  | token :: rest =>
      if token.isPunct '(' then arguments stop rest else .ok ([], token :: rest)

/-- One member behind another: a name, its arguments, and the members behind them. -/
theorem chainedCalls_cons (stop : Nat) (token : Token) (rest : List Token) :
    chainedCalls stop (token :: rest) =
      if token.isPunct '.' then
        (callName stop rest).bind fun (name, next) =>
          (argumentsBehind stop next).bind fun (args, behind) =>
            (chainedCalls stop behind).map fun (calls, after) => (⟨name, args⟩ :: calls, after)
      else
        .ok ([], token :: rest) := by
  rw [chainedCalls.eq_def]
  dsimp only
  split
  · split
    · rename_i hname
      rw [hname]
      rfl
    · rename_i name hname
      rw [hname]
      simp [Except.bind, argumentsBehind, chainedCalls, Except.map]
    · rename_i name next later hname
      rw [hname]
      change _ = (argumentsBehind stop (next :: later)).bind _
      rw [argumentsBehind]
      by_cases hparen : next.isPunct '(' = true
      · rw [if_pos hparen, if_pos hparen]
        split
        · rename_i hargs
          rw [hargs]
          rfl
        · rename_i args after hargs
          rw [hargs]
          change _ = (chainedCalls stop after).map _
          cases chainedCalls stop after <;> rfl
      · rw [if_neg hparen, if_neg hparen]
        change _ = (chainedCalls stop (next :: later)).map _
        cases chainedCalls stop (next :: later) <;> rfl
  · rfl

/-! ### What is left -/

theorem suffix_of_callName {name : String} (h : callName stop later = .ok (name, after)) :
    after <:+ later := by
  obtain ⟨token, generic, rfl, -, -⟩ := callName_eq_ok_iff.1 h
  exact ⟨token :: generic, rfl⟩

theorem suffix_of_argumentsBehind {args : List Value}
    (h : argumentsBehind stop later = .ok (args, after)) : after <:+ later := by
  cases later with
  | nil =>
      cases h
      exact List.suffix_rfl
  | cons token rest =>
      rw [argumentsBehind] at h
      split at h
      · obtain ⟨used, rfl, -⟩ := arguments_eq_ok_iff.1 h
        exact ⟨token :: used, rfl⟩
      · cases h
        exact List.suffix_rfl

theorem suffix_of_chainedCalls {calls : List Call}
    (h : chainedCalls stop later = .ok (calls, after)) : after <:+ later := by
  induction hlength : later.length using Nat.strongRecOn generalizing later calls with
  | ind length ih =>
      subst hlength
      cases later with
      | nil =>
          rw [chainedCalls] at h
          cases h
          exact List.suffix_rfl
      | cons token rest =>
          rw [chainedCalls_cons] at h
          split_ifs at h
          · obtain ⟨⟨name, next⟩, hname, h⟩ := bind_eq_ok_iff.1 h
            obtain ⟨⟨args, behind⟩, hargs, h⟩ := bind_eq_ok_iff.1 h
            obtain ⟨⟨others, left⟩, hothers, hpair⟩ := map_eq_ok_iff.1 h
            cases hpair
            have hbehind := (suffix_of_argumentsBehind hargs).trans (suffix_of_callName hname)
            have hrest := hbehind.trans (List.suffix_cons token rest)
            have hshorter : behind.length < (token :: rest).length :=
              Nat.lt_succ_of_le hbehind.length_le
            exact (ih _ hshorter hothers rfl).trans hrest
          · cases h
            exact List.suffix_rfl

theorem suffix_of_expression {expr : Expression}
    (h : expression stop later = .ok (expr, after)) : after <:+ later := by
  unfold expression at h
  split at h
  · cases h
  · cases h
  · rename_i name first rest hname
    have hrest := (List.suffix_cons first rest).trans (suffix_of_callName hname)
    split at h
    · split at h
      · cases h
      · rename_i args behind hargs
        obtain ⟨used, rfl, -⟩ := arguments_eq_ok_iff.1 hargs
        split at h
        · cases h
        · rename_i calls remaining hcalls
          cases h
          exact (suffix_of_chainedCalls hcalls).trans
            ((List.suffix_append used behind).trans hrest)
    · cases h

end TableModels.Column
