import TableModels.Proofs.Column.CallReading
import TableModels.Proofs.Column.CheckedValues

/-!
# Reading expressions with checks

No check of the reader that checks what it does ever fails, and what it reads is what the grammar
reads (`checkedParse_eq`).

## Implementation notes

Arguments and chained calls are lists that a loop reads to their end, so each is compared by
induction on the number of tokens that are left.
-/

namespace TableModels.Column

open Checked

section Calls

variable {text : String} {tokens later rest : List Token} {token : Token}

/-- No check of the reader of arguments fails. -/
theorem argumentsAt_eq (hread : tokenize text.toList = .ok tokens) (h : later <:+ tokens) :
    argumentsAt text (tokens.map Token.span) (position tokens later) =
      passed (locatedRead tokens (arguments text.utf8ByteSize later)) := by
  induction hlength : later.length using Nat.strongRecOn generalizing later with
  | ind length ih =>
      subst hlength
      rw [argumentsAt, (readersAt_eq hread h).1]
      cases later with
      | nil =>
          rw [isPunctAt_nil, arguments.eq_def]
          rfl
      | cons token rest =>
          rw [isPunctAt_cons h, position_cons h, arguments_cons]
          by_cases hclose : token.isPunct ')' = true
          · rw [if_pos hclose, if_pos hclose]
            rfl
          · rw [if_neg hclose, if_neg hclose]
            cases hfound : valueAhead? (token :: rest) with
            | none => rfl
            | some found =>
                obtain ⟨value, after⟩ := found
                have hshorter := length_lt_of_valueAhead? hfound
                have hafter := (suffix_of_valueAhead? hfound).trans h
                obtain ⟨hlt, -⟩ := exists_getElem_position h
                dsimp only [orExpected, located, Option.map_some]
                rw [ok_bind]
                dsimp only
                rw [dif_pos ⟨hlt, position_lt h hshorter⟩, startAt_position text hafter]
                cases after with
                | nil =>
                    rw [isPunctAt_nil, isPunctAt_nil]
                    rfl
                | cons separator later =>
                    have hlater := (List.suffix_cons separator later).trans hafter
                    rw [isPunctAt_cons hafter, isPunctAt_cons hafter, position_cons hafter]
                    dsimp only
                    by_cases hcomma : separator.isPunct ',' = true
                    · have hless : later.length < (token :: rest).length :=
                        Nat.lt_of_succ_lt hshorter
                      rw [if_pos hcomma, if_pos hcomma, ih _ hless hlater rfl]
                      cases arguments text.utf8ByteSize later <;> rfl
                    · rw [if_neg hcomma, if_neg hcomma]
                      by_cases hend : separator.isPunct ')' = true
                      · rw [if_pos hend, if_pos hend, ih _ hshorter hafter rfl, arguments_cons,
                          if_pos hend]
                        rfl
                      · rw [if_neg hend, if_neg hend]
                        rfl

theorem anglesEnd_cons (depth : Nat) (h : token :: rest <:+ tokens) :
    anglesEnd (tokens.map Token.span) depth (position tokens (token :: rest)) =
      if token.isPunct '<' then
        anglesEnd (tokens.map Token.span) (depth + 1) (position tokens rest)
      else if token.isPunct '>' then
        check depth.ppred >>= fun outer =>
          if outer = 0 then passed (.ok (some (position tokens rest)))
          else anglesEnd (tokens.map Token.span) outer (position tokens rest)
      else
        anglesEnd (tokens.map Token.span) depth (position tokens rest) := by
  obtain ⟨hlt, hget⟩ := exists_getElem_position h
  rw [anglesEnd, dif_pos hlt, hget, position_cons h]
  rfl

/-- Inside of an angle bracket the count of open ones is never made less than zero. -/
theorem anglesEnd_eq (depth : Nat) (h : later <:+ tokens) :
    anglesEnd (tokens.map Token.span) (depth + 1) (position tokens later) =
      passed (.ok ((afterAngles? (depth + 1) later).map (position tokens))) := by
  induction later generalizing depth with
  | nil =>
      rw [anglesEnd, dif_neg (not_position_nil_lt tokens), afterAngles?]
      rfl
  | cons token rest ih =>
      have hrest := (List.suffix_cons token rest).trans h
      rw [anglesEnd_cons (depth + 1) h, afterAngles?, Nat.ppred_succ, check_some_bind]
      split
      · exact ih (depth + 1) hrest
      · split
        · cases depth with
          | zero => rfl
          | succ outer => exact ih outer hrest
        · exact ih depth hrest

theorem typeArgumentsEnd_eq (text : String) (h : later <:+ tokens) :
    typeArgumentsEnd text (tokens.map Token.span) (position tokens later) =
      passed ((skipTypeArguments later).map (position tokens)) := by
  rw [typeArgumentsEnd, startAt_position text h]
  cases later with
  | nil =>
      rw [isPunctAt_nil]
      rfl
  | cons token rest =>
      have hrest := (List.suffix_cons token rest).trans h
      rw [isPunctAt_cons h, skipTypeArguments]
      by_cases hopen : token.isPunct '<' = true
      · rw [if_pos hopen, if_pos hopen, anglesEnd_cons 0 h, if_pos hopen, anglesEnd_eq 0 hrest,
          ok_bind]
        cases afterAngles? 1 rest <;> rfl
      · rw [if_neg hopen, if_neg hopen]
        rfl

theorem callNameAt_eq (text : String) (h : later <:+ tokens) :
    callNameAt text (tokens.map Token.span) (position tokens later) =
      passed (locatedRead tokens (callName text.utf8ByteSize later)) := by
  rw [callNameAt, startAt_position text h, getElem?_position h]
  cases later with
  | nil => rfl
  | cons token rest =>
      have hrest := (List.suffix_cons token rest).trans h
      rw [position_cons h, typeArgumentsEnd_eq text hrest]
      obtain ⟨kind, offset, gap, characters⟩ := token
      cases kind with
      | ident name =>
          rw [callName]
          cases skipTypeArguments rest <;> rfl
      | _ => rfl

theorem argumentsBehindAt_eq (hread : tokenize text.toList = .ok tokens) (h : later <:+ tokens) :
    argumentsBehindAt text (tokens.map Token.span) (position tokens later) =
      passed (locatedRead tokens (argumentsBehind text.utf8ByteSize later)) := by
  rw [argumentsBehindAt]
  cases later with
  | nil =>
      rw [isPunctAt_nil]
      rfl
  | cons token rest =>
      have hrest := (List.suffix_cons token rest).trans h
      rw [isPunctAt_cons h, position_cons h, argumentsAt_eq hread hrest, argumentsBehind]
      split <;> rfl

/-- No check of the reader of chained calls fails, and each round takes it further. -/
theorem chainAt_eq (hread : tokenize text.toList = .ok tokens) (h : later <:+ tokens) :
    chainAt text (tokens.map Token.span) (position tokens later) =
      passed (locatedRead tokens (chainedCalls text.utf8ByteSize later)) := by
  induction hlength : later.length using Nat.strongRecOn generalizing later with
  | ind length ih =>
      subst hlength
      rw [chainAt]
      cases later with
      | nil =>
          rw [isPunctAt_nil, chainedCalls]
          rfl
      | cons token rest =>
          have hrest := (List.suffix_cons token rest).trans h
          rw [isPunctAt_cons h, position_cons h, callNameAt_eq text hrest, chainedCalls_cons]
          by_cases hdot : token.isPunct '.' = true
          · rw [if_pos hdot, if_pos hdot]
            rcases hname : callName text.utf8ByteSize rest with error | ⟨name, next⟩
            · rfl
            · have hnext := (suffix_of_callName hname).trans hrest
              dsimp only [locatedRead, Except.map, Except.bind]
              rw [ok_bind]
              dsimp only
              rw [argumentsBehindAt_eq hread hnext]
              rcases hargs : argumentsBehind text.utf8ByteSize next with error | ⟨args, behind⟩
              · rfl
              · have hsuffix := suffix_of_argumentsBehind hargs
                have hshorter : behind.length < (token :: rest).length :=
                  Nat.lt_succ_of_lt (Nat.lt_of_le_of_lt hsuffix.length_le
                    (length_lt_of_callName hname))
                obtain ⟨hlt, -⟩ := exists_getElem_position h
                dsimp only [locatedRead, Except.map]
                rw [ok_bind]
                dsimp only
                rw [dif_pos ⟨hlt, position_lt h hshorter⟩,
                  ih _ hshorter (hsuffix.trans hnext) rfl]
                cases chainedCalls text.utf8ByteSize behind <;> rfl
          · rw [if_neg hdot, if_neg hdot]
            rfl

/-- No check of the reader of expressions fails. -/
theorem expressionAt_eq (hread : tokenize text.toList = .ok tokens) (h : later <:+ tokens) :
    expressionAt text (tokens.map Token.span) (position tokens later) =
      passed (locatedRead tokens (expression text.utf8ByteSize later)) := by
  rw [expressionAt, callNameAt_eq text h, expression]
  rcases hname : callName text.utf8ByteSize later with error | ⟨name, next⟩
  · rfl
  · have hnext := (suffix_of_callName hname).trans h
    dsimp only [locatedRead, Except.map]
    rw [ok_bind]
    dsimp only
    rw [startAt_position text hnext]
    cases next with
    | nil =>
        rw [isPunctAt_nil]
        rfl
    | cons first rest =>
        have hrest := (List.suffix_cons first rest).trans hnext
        rw [isPunctAt_cons hnext, position_cons hnext, argumentsAt_eq hread hrest]
        dsimp only
        by_cases hparen : first.isPunct '(' = true
        · rw [if_pos hparen, if_pos hparen]
          rcases hargs : arguments text.utf8ByteSize rest with error | ⟨args, behind⟩
          · rfl
          · obtain ⟨used, rfl, -⟩ := arguments_eq_ok_iff.1 hargs
            have hbehind := (List.suffix_append used behind).trans hrest
            dsimp only [locatedRead, Except.map]
            rw [ok_bind]
            dsimp only
            rw [chainAt_eq hread hbehind]
            cases chainedCalls text.utf8ByteSize behind <;> rfl
        · rw [if_neg hparen, if_neg hparen]
          rfl

end Calls

/-- No check of the reader fails, and what it reads is what the grammar reads. -/
theorem checkedParse_eq (text : String) : checkedParse text = passed (parse text) := by
  rw [checkedParse, scan_eq, parse]
  rcases hread : tokenize text.toList with error | tokens
  · rfl
  · cases tokens with
    | nil => rfl
    | cons first rest =>
        have hstart : position (first :: rest) (first :: rest) = 0 := Nat.sub_self _
        have hexpr := expressionAt_eq hread (List.suffix_refl (first :: rest))
        rw [hstart] at hexpr
        change (expressionAt text ((first :: rest).map Token.span) 0 >>= _ : Checked Expression) = _
        rw [hexpr]
        dsimp only
        rcases hresult : expression text.utf8ByteSize (first :: rest) with error | ⟨expr, after⟩
        · rfl
        · dsimp only [locatedRead, Except.map]
          rw [ok_bind]
          dsimp only
          rw [getElem?_position (suffix_of_expression hresult)]
          cases after <;> rfl

end TableModels.Column
