import TableModels.Proofs.Column.CheckedReader
import TableModels.Proofs.Column.Rewriting

/-!
# Reading values with checks

The reader that checks what it does reads values, entries and items as the grammar reads them, and
no check fails on the way (`readersAt_eq`).

## Implementation notes

The readers of values, entries and items call one another, so they are compared together, by
induction on the number of tokens that are left. Each has a lemma of its own, in which the readers
that it calls are compared by hypothesis.
-/

namespace TableModels.Column

open Checked

section Values

variable {text : String} {tokens later rest after run : List Token} {token first : Token}

theorem runEnd_cons (depth : Nat) (h : token :: rest <:+ tokens) :
    runEnd (tokens.map Token.span) depth (position tokens (token :: rest)) =
      if token.opens then
        runEnd (tokens.map Token.span) (depth + 1) (position tokens rest)
      else if token.closes then
        if depth = 0 then
          passed (.ok (position tokens (token :: rest)))
        else
          check depth.ppred >>= fun outer =>
            runEnd (tokens.map Token.span) outer (position tokens rest)
      else if depth = 0 ∧ token.isPunct ',' then
        passed (.ok (position tokens (token :: rest)))
      else
        runEnd (tokens.map Token.span) depth (position tokens rest) := by
  obtain ⟨hlt, hget⟩ := exists_getElem_position h
  rw [runEnd, dif_pos hlt, hget, position_cons h]
  rfl

/-- The end of a run of tokens is found with counts that are never made less than zero. -/
theorem runEnd_eq (depth : Nat) (h : later <:+ tokens) :
    runEnd (tokens.map Token.span) depth (position tokens later) =
      passed (.ok (position tokens (valueRun depth later).2)) := by
  induction later generalizing depth with
  | nil =>
      rw [runEnd, dif_neg (not_position_nil_lt tokens), valueRun]
      rfl
  | cons token rest ih =>
      have hrest := (List.suffix_cons token rest).trans h
      rw [runEnd_cons depth h, valueRun.eq_def]
      dsimp only
      split
      · exact ih (depth + 1) hrest
      · split
        · cases depth with
          | zero => rfl
          | succ outer => exact ih outer hrest
        · split
          · rfl
          · exact ih depth hrest

variable (hread : tokenize text.toList = .ok tokens)

include hread

/-- The text of a run is cut out between the start of its first token and the end of its last. -/
theorem slice?_run {last : Token} (h : run ++ after <:+ tokens) (hfirst : run.head? = some first)
    (hlast : run.getLast? = some last) :
    slice? text first.offset last.stop = some (String.ofList (runText run)) := by
  obtain ⟨blank, htext, -, hscans⟩ := tokenize_eq_ok_iff.1 hread
  obtain ⟨front, rfl⟩ := h
  obtain ⟨rest, rfl⟩ := List.head?_eq_some_iff.1 hfirst
  obtain ⟨others, hrun⟩ := List.getLast?_eq_some_iff.1 hlast
  have hcut : text.toList =
      (spread front ++ first.gap) ++ runText (first :: rest) ++ (spread after ++ blank) := by
    rw [htext, runText_cons]
    simp only [spread_append, spread_cons, List.append_assoc]
  have hoffset : first.offset = byteLength (spread front ++ first.gap) := by
    rw [hscans.isReadAt.offset, byteLength_append, Nat.zero_add]
  have hstop : last.stop = first.offset + byteLength (runText (first :: rest)) := by
    rw [hrun, List.append_assoc, List.singleton_append, ← List.append_assoc] at hscans
    rw [hscans.stop_eq, List.append_assoc, ← hrun, hoffset, runText_cons, Nat.zero_add]
    simp only [spread_append, spread_cons, byteLength_append]
    omega
  rw [hstop, hoffset]
  exact slice?_append hcut

/-- The text up to the next place at which a value may end is cut out of the text. -/
theorem verbatimAt_eq (h : later <:+ tokens) :
    verbatimAt text (tokens.map Token.span) (position tokens later) =
      passed (orExpected text tokens later (verbatimAhead? later)) := by
  have happend := valueRun_append 0 later
  rw [verbatimAt, runEnd_eq 0 h, ok_bind, verbatimAhead?]
  cases hrun : valueRun 0 later with
  | mk run after =>
      rw [hrun] at happend
      dsimp only at happend ⊢
      subst happend
      cases run with
      | nil =>
          rw [List.nil_append] at h ⊢
          rw [if_pos rfl, startAt_position text h]
          rfl
      | cons first rest =>
          obtain ⟨last, hlast⟩ : ∃ last, (first :: rest).getLast? = some last :=
            ⟨_, List.getLast?_eq_some_getLast (List.cons_ne_nil first rest)⟩
          obtain ⟨others, hothers⟩ := List.getLast?_eq_some_iff.1 hlast
          have hbehind : last :: after <:+ tokens := by
            rw [hothers, List.append_assoc] at h
            exact (List.suffix_append others _).trans h
          have hmoves := position_append h
          rw [List.length_cons] at hmoves
          have hslice := slice?_run hread h rfl hlast
          rw [if_neg (by omega), getElem?_position h, ← position_cons hbehind]
          simp only [List.cons_append, List.head?_cons, Option.map_some, check_some_bind,
            Nat.ppred_succ, getElem?_position hbehind]
          rw [Token.span, Token.span, hslice, check_some_bind, position_cons hbehind]
          rfl

omit hread

/-- A literal is read as the grammar reads it when the lists behind its first token are. -/
theorem literalAt_eq (h : later <:+ tokens)
    (hentries : ∀ rest, rest <:+ tokens → rest.length < later.length →
      entriesAt text (tokens.map Token.span) (position tokens rest) =
        passed (.ok (located tokens (objectEntries rest))))
    (hitems : ∀ rest, rest <:+ tokens → rest.length < later.length →
      itemsAt text (tokens.map Token.span) (position tokens rest) =
        passed (.ok (located tokens (arrayItems rest)))) :
    literalAt text (tokens.map Token.span) (position tokens later) =
      passed (.ok (located tokens (literalAhead? later))) := by
  cases later with
  | nil =>
      rw [literalAt, dif_neg (not_position_nil_lt tokens)]
      rfl
  | cons token rest =>
      obtain ⟨hlt, hget⟩ := exists_getElem_position h
      have hrest := (List.suffix_cons token rest).trans h
      rw [literalAt, dif_pos hlt, hget, position_cons h, literalAhead?, literalBy.eq_def]
      dsimp only [Token.span]
      cases token.kind with
      | punct c =>
          by_cases hminus : c = '-'
          · subst hminus
            rw [getElem?_position hrest]
            cases rest with
            | nil => rfl
            | cons next others =>
                obtain ⟨kind, offset, gap, characters⟩ := next
                have hmoves := position_cons hrest
                rw [← position_cons h, Nat.add_assoc] at hmoves
                cases kind with
                | number literal =>
                    dsimp only [List.head?_cons, Option.map_some, Token.span]
                    rw [hmoves]
                    rfl
                | _ => rfl
          by_cases hbrace : c = '\x7b'
          · subst hbrace
            rw [hentries rest hrest (Nat.lt_succ_self _), ok_bind]
            cases objectEntries rest <;> rfl
          by_cases hbracket : c = '['
          · subst hbracket
            rw [hitems rest hrest (Nat.lt_succ_self _), ok_bind]
            cases arrayItems rest <;> rfl
          · -- no other character begins a literal
            simp only [TokenKind.punct.injEq, hminus, hbrace, hbracket, imp_self]
            rfl
      | _ => rfl

include hread in
/-- A value is read as the grammar reads it when the literal at its head is. -/
theorem valueAt_eq_of_literalAt (h : later <:+ tokens)
    (hliteral : literalAt text (tokens.map Token.span) (position tokens later) =
      passed (.ok (located tokens (literalAhead? later)))) :
    valueAt text (tokens.map Token.span) (position tokens later) =
      passed (orExpected text tokens later (valueAhead? later)) := by
  rw [valueAt, hliteral, ok_bind, valueAhead?_eq_literalOrVerbatim, literalOrVerbatim]
  cases hfound : literalAhead? later with
  | none => exact verbatimAt_eq hread h
  | some found =>
      obtain ⟨value, after⟩ := found
      obtain ⟨run, rfl, -⟩ := literalAhead?_eq_some_iff.1 hfound
      have hafter := (List.suffix_append run after).trans h
      dsimp only [located, Option.map_some]
      rw [endsAt_position hafter]
      cases endsValue after with
      | true => rfl
      | false => exact verbatimAt_eq hread h

/-- The elements of a list that has `element` in front of the tokens, and the tokens behind it. -/
def listingRest {α : Type} (close : Char) (read : List Token → Option (List α × List Token))
    (element : α) : List Token → Option (List α × List Token)
  | [] => none
  | separator :: later =>
      if separator.isPunct ',' then
        (read later).map fun (others, next) => (element :: others, next)
      else if separator.isPunct close then
        some ([element], later)
      else
        none

theorem listingStep_cons {α : Type} (close : Char)
    (element? : List Token → Option (α × List Token))
    (read : List Token → Option (List α × List Token)) (token : Token) (rest : List Token) :
    listingStep close element? read (token :: rest) =
      if token.isPunct close then some ([], rest)
      else (element? (token :: rest)).bind fun (element, after) =>
        listingRest close read element after := by
  rw [listingStep]
  split
  · rfl
  · rcases element? (token :: rest) with _ | ⟨element, _ | ⟨separator, later⟩⟩ <;> rfl

/-- Behind an element a list goes on as the grammar says, when the rest of it does. -/
theorem listingAt_eq {α : Type} {close : Char} {read : List Token → Option (List α × List Token)}
    {again : Nat → Checked (Option (List α × Nat))} (element : α) (h : after <:+ tokens)
    (hstep : ∃ element?, ∀ later, read later = listingStep close element? read later)
    (hagain : ∀ rest, rest <:+ tokens → rest.length ≤ after.length →
      again (position tokens rest) = passed (.ok (located tokens (read rest)))) :
    (if isPunctAt (tokens.map Token.span) (position tokens after) ',' then do
      let others? ← again (position tokens after + 1)
      return others?.map fun (others, next) => (element :: others, next)
    else if isPunctAt (tokens.map Token.span) (position tokens after) close then do
      let others? ← again (position tokens after)
      return others?.map fun (others, next) => (element :: others, next)
    else
      return none) = passed (.ok (located tokens (listingRest close read element after))) := by
  cases after with
  | nil =>
      rw [isPunctAt_nil, isPunctAt_nil]
      rfl
  | cons separator later =>
      have hlater := (List.suffix_cons separator later).trans h
      rw [isPunctAt_cons h, isPunctAt_cons h, position_cons h, listingRest]
      by_cases hcomma : separator.isPunct ',' = true
      · rw [if_pos hcomma, if_pos hcomma, hagain later hlater (Nat.le_succ _), ok_bind]
        cases read later <;> rfl
      · rw [if_neg hcomma, if_neg hcomma]
        by_cases hclose : separator.isPunct close = true
        · obtain ⟨element?, hread⟩ := hstep
          rw [if_pos hclose, if_pos hclose, hagain _ h (Nat.le_refl _), ok_bind, hread,
            listingStep_cons, if_pos hclose]
          rfl
        · rw [if_neg hclose, if_neg hclose]
          rfl

theorem optional_orExpected_bind {β : Type} (found : Option (Value × List Token))
    (next : Option (Value × Nat) → Checked β) :
    optional (passed (orExpected text tokens later found)) >>= next =
      next (located tokens found) := by
  cases found <;> rfl

/-- Items are read as the grammar reads them when the value at their head and the items behind it
are. -/
theorem itemsAt_eq_of_valueAt (h : later <:+ tokens)
    (hvalue : valueAt text (tokens.map Token.span) (position tokens later) =
      passed (orExpected text tokens later (valueAhead? later)))
    (hagain : ∀ rest, rest <:+ tokens → rest.length < later.length →
      itemsAt text (tokens.map Token.span) (position tokens rest) =
        passed (.ok (located tokens (arrayItems rest)))) :
    itemsAt text (tokens.map Token.span) (position tokens later) =
      passed (.ok (located tokens (arrayItems later))) := by
  rw [itemsAt, hvalue, optional_orExpected_bind, arrayItems_step]
  cases later with
  | nil =>
      rw [isPunctAt_nil]
      rfl
  | cons token rest =>
      rw [isPunctAt_cons h, position_cons h, listingStep_cons]
      by_cases hclose : token.isPunct ']' = true
      · rw [if_pos hclose, if_pos hclose]
        rfl
      · rw [if_neg hclose, if_neg hclose]
        cases hfound : valueAhead? (token :: rest) with
        | none => rfl
        | some found =>
            obtain ⟨value, after⟩ := found
            have hshorter := length_lt_of_valueAhead? hfound
            have hafter := (suffix_of_valueAhead? hfound).trans h
            obtain ⟨hlt, -⟩ := exists_getElem_position h
            dsimp only [located, Option.map_some, Option.bind_some]
            rw [dif_pos ⟨hlt, position_lt h hshorter⟩]
            apply listingAt_eq value hafter ⟨_, arrayItems_step⟩
            intro others hothers hle
            exact hagain others hothers (Nat.lt_of_le_of_lt hle hshorter)

/-- Entries are read as the grammar reads them when the value at their head and the entries behind
it are. -/
theorem entriesAt_eq_of_valueAt (h : later <:+ tokens)
    (hvalue : ∀ rest, rest <:+ tokens → rest.length < later.length →
      valueAt text (tokens.map Token.span) (position tokens rest) =
        passed (orExpected text tokens rest (valueAhead? rest)))
    (hagain : ∀ rest, rest <:+ tokens → rest.length < later.length →
      entriesAt text (tokens.map Token.span) (position tokens rest) =
        passed (.ok (located tokens (objectEntries rest)))) :
    entriesAt text (tokens.map Token.span) (position tokens later) =
      passed (.ok (located tokens (objectEntries later))) := by
  rw [entriesAt, objectEntries_step]
  cases later with
  | nil =>
      rw [dif_neg (not_position_nil_lt tokens)]
      rfl
  | cons token rest =>
      obtain ⟨hlt, hget⟩ := exists_getElem_position h
      have hrest := (List.suffix_cons token rest).trans h
      rw [dif_pos hlt, hget, position_cons h, listingStep_cons]
      change (if token.isPunct '\x7d' then _ else _) = _
      by_cases hclose : token.isPunct '\x7d' = true
      · rw [if_pos hclose, if_pos hclose]
        rfl
      · rw [if_neg hclose, if_neg hclose]
        cases rest with
        | nil =>
            rw [isPunctAt_nil]
            cases keyOf? token.span.kind <;> rfl
        | cons colon inside =>
            have hinside := (List.suffix_cons colon inside).trans hrest
            have hmoves := position_cons hrest
            rw [← position_cons h, Nat.add_assoc] at hmoves
            have hshorter : inside.length < (token :: colon :: inside).length := by
              simp only [List.length_cons]
              omega
            rw [isPunctAt_cons hrest, entryBy, hmoves, hvalue inside hinside hshorter]
            rw [Token.span_kind]
            cases keyOf? token.kind with
            | none => rfl
            | some key =>
                dsimp only
                by_cases hcolon : colon.isPunct ':' = true
                · rw [if_pos hcolon, if_pos hcolon, optional_orExpected_bind]
                  cases hfound : valueAhead? inside with
                  | none => rfl
                  | some found =>
                      obtain ⟨value, after⟩ := found
                      have hless := Nat.lt_trans (length_lt_of_valueAhead? hfound) hshorter
                      have hafter := (suffix_of_valueAhead? hfound).trans hinside
                      dsimp only [located, Option.map_some, Option.bind_some]
                      rw [dif_pos (position_lt h hless)]
                      apply listingAt_eq (key, value) hafter ⟨_, objectEntries_step⟩
                      intro others hothers hle
                      exact hagain others hothers (Nat.lt_of_le_of_lt hle hless)
                · rw [if_neg hcolon, if_neg hcolon]
                  rfl

/-- No check of the readers of values, entries and items fails, and they read as the grammar
does. -/
theorem readersAt_eq (hread : tokenize text.toList = .ok tokens) (h : later <:+ tokens) :
    valueAt text (tokens.map Token.span) (position tokens later) =
        passed (orExpected text tokens later (valueAhead? later)) ∧
      entriesAt text (tokens.map Token.span) (position tokens later) =
        passed (.ok (located tokens (objectEntries later))) ∧
      itemsAt text (tokens.map Token.span) (position tokens later) =
        passed (.ok (located tokens (arrayItems later))) := by
  induction hlength : later.length using Nat.strongRecOn generalizing later with
  | ind length ih =>
      subst hlength
      have hshorter := fun rest (hrest : rest <:+ tokens) (hlt : rest.length < later.length) =>
        ih rest.length hlt hrest rfl
      have hliteral := literalAt_eq h (fun rest hrest hlt => (hshorter rest hrest hlt).2.1)
        (fun rest hrest hlt => (hshorter rest hrest hlt).2.2)
      have hvalue := valueAt_eq_of_literalAt hread h hliteral
      refine ⟨hvalue, ?_, ?_⟩
      · exact entriesAt_eq_of_valueAt h (fun rest hrest hlt => (hshorter rest hrest hlt).1)
          (fun rest hrest hlt => (hshorter rest hrest hlt).2.1)
      · exact itemsAt_eq_of_valueAt h hvalue fun rest hrest hlt => (hshorter rest hrest hlt).2.2

end Values

end TableModels.Column
