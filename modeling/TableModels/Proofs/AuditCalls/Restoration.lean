import TableModels.AuditCalls.DisabledCall
import TableModels.Proofs.Column.Lexing
import TableModels.Proofs.Text.Matches
import TableModels.Proofs.Text.Splitting

/-!
# Restoring disabled calls

A disabled call is read wherever its text stands, since none of its runs of blanks can reach into
what comes next. Its only opening parenthesis ends it, behind a letter `g`. The call that replaces a
disabled one ends in its only opening parenthesis as well, but behind a letter `n`. So no disabled
call overlaps a replacement, and where none was found in the text there is none in the result.

## Implementation notes

That no call stands across a replacement is not seen from the text behind the replacement alone: a
call may begin in characters that were kept in front of it. `RestoresCalls.begins_before` is
therefore stated for any characters in front.
-/

namespace TableModels.AuditCalls

open Column (StopsAt)
open Text (after?)

/-- A space or a tab. -/
def isBlankCharacter (c : Char) : Bool :=
  c == ' ' || c == '\t'

/-- Spaces and tabs and nothing else. -/
def IsBlanks (text : List Char) : Prop :=
  ∀ c ∈ text, isBlankCharacter c = true

/-- A line feed, with or without a carriage return in front of it. -/
def IsLineBreak (text : List Char) : Prop :=
  text = ['\n'] ∨ text = ['\r', '\n']

/-- The text of a disabled call: a comment that asks for its repair, and on the next line a comment
with the beginning of the call. -/
def IsDisabledCall (text : List Char) : Prop :=
  ∃ beforeTodo beforeFix behindFix lineBreak indentation beforeCall,
    (∀ blanks ∈ [beforeTodo, beforeFix, behindFix, indentation, beforeCall], IsBlanks blanks) ∧
    IsLineBreak lineBreak ∧
    text = "//".toList ++ (beforeTodo ++ ("TODO:".toList ++ (beforeFix ++ ("Fix audit log".toList ++
      (behindFix ++ (lineBreak ++ (indentation ++ ("//".toList ++ (beforeCall ++
        "await auditService.createAuditLog(".toList)))))))))

/-- Somewhere in the text stands a disabled call. -/
def HoldsDisabledCall (text : List Char) : Prop :=
  ∃ call, IsDisabledCall call ∧ call <:+: text

/-- The second text is left of the first when as many disabled calls have been replaced in it, from
the left: a character is kept only where no disabled call begins. -/
inductive RestoresCalls : List Char → List Char → Nat → Prop
  | nil : RestoresCalls [] [] 0
  | keep {c : Char} {text left : List Char} {count : Nat}
      (hnone : ∀ call, IsDisabledCall call → ¬ call <+: c :: text)
      (h : RestoresCalls text left count) : RestoresCalls (c :: text) (c :: left) count
  | restore {call text left : List Char} {count : Nat} (hcall : IsDisabledCall call)
      (h : RestoresCalls text left count) :
      RestoresCalls (call ++ text) (enabledCall.toList ++ left) (count + 1)

/-! ### Reading a disabled call -/

namespace Part

/-- What a part stands for. -/
def Spells : Part → List Char → Prop
  | literal start, text => text = start
  | blanks, text => IsBlanks text
  | lineBreak, text => IsLineBreak text

/-- What a sequence of parts stands for. -/
def SpellsAll : List Part → List Char → Prop
  | [], text => text = []
  | part :: parts, text =>
      ∃ read rest, part.Spells read ∧ text = read ++ rest ∧ SpellsAll parts rest

/-- What the parts stand for begins with a character that is no blank. -/
def beginSolid : List Part → Bool
  | literal (c :: _) :: _ => !isBlankCharacter c
  | lineBreak :: _ => true
  | _ => false

/-- Behind each run of blanks comes a character that is no blank. -/
def endBlanks : List Part → Bool
  | [] => true
  | blanks :: parts => beginSolid parts && endBlanks parts
  | _ :: parts => endBlanks parts

theorem after?_lineBreak_eq_some_iff {text rest : List Char} :
    lineBreak.after? text = some rest ↔ ∃ read, IsLineBreak read ∧ text = read ++ rest := by
  constructor
  · intro h
    unfold after? at h
    split at h
    · rename_i heq
      cases heq
    · rename_i heq
      cases heq
    · cases h
      exact ⟨['\r', '\n'], Or.inr rfl, rfl⟩
    · cases h
      exact ⟨['\n'], Or.inl rfl, rfl⟩
    · cases h
  · rintro ⟨_, rfl | rfl, rfl⟩
    · rfl
    · rfl

/-- Blanks are read as far as they go, and every other part as it is spelled. -/
theorem after?_eq_some_iff {part : Part} {text rest : List Char} :
    part.after? text = some rest ↔
      ∃ read, part.Spells read ∧ text = read ++ rest ∧
        (part = blanks → StopsAt isBlankCharacter rest) := by
  cases part with
  | literal start =>
      have hafter : (literal start).after? text = Text.after? start text := rfl
      rw [hafter, Text.after?_eq_some_iff]
      constructor
      · intro h
        exact ⟨start, rfl, h, nofun⟩
      · rintro ⟨_, rfl, h, -⟩
        exact h
  | blanks =>
      have hafter : blanks.after? text = some (text.dropWhile isBlankCharacter) := rfl
      rw [hafter, Option.some.injEq]
      constructor
      · rintro rfl
        refine ⟨_, List.all_eq_true.1 List.all_takeWhile, List.takeWhile_append_dropWhile.symm, ?_⟩
        rintro - c hc
        simpa [hc] using List.head?_dropWhile_not isBlankCharacter text
      · rintro ⟨read, hread, rfl, hstop⟩
        apply Column.dropWhile_append_of_takeWhile
        exact Column.takeWhile_append_eq_iff.2 ⟨hread, hstop rfl⟩
  | lineBreak =>
      rw [after?_lineBreak_eq_some_iff]
      constructor
      · rintro ⟨read, hread, htext⟩
        exact ⟨read, hread, htext, nofun⟩
      · rintro ⟨read, hread, htext, -⟩
        exact ⟨read, hread, htext⟩

theorem stopsAt_of_beginSolid {parts : List Part} {read : List Char} (h : SpellsAll parts read)
    (hsolid : beginSolid parts = true) (rest : List Char) :
    StopsAt isBlankCharacter (read ++ rest) := by
  unfold beginSolid at hsolid
  split at hsolid
  · obtain ⟨_, later, rfl, rfl, -⟩ := h
    rintro _ ⟨⟩
    simpa using hsolid
  · obtain ⟨_, later, rfl | rfl, rfl, -⟩ := h
    · rintro _ ⟨⟩
      decide
    · rintro _ ⟨⟩
      decide
  · cases hsolid

/-- Parts are read as they are spelled when no run of blanks can reach into what comes next. -/
theorem afterAll?_eq_some_iff {parts : List Part} (h : endBlanks parts = true)
    {text rest : List Char} :
    afterAll? parts text = some rest ↔ ∃ read, SpellsAll parts read ∧ text = read ++ rest := by
  induction parts generalizing text with
  | nil => simp [afterAll?, SpellsAll]
  | cons part parts ih =>
      have hparts : endBlanks parts = true := by
        cases part with
        | blanks => exact (Bool.and_eq_true_iff.1 h).2
        | literal start => exact h
        | lineBreak => exact h
      rw [afterAll?, Option.bind_eq_some_iff]
      constructor
      · rintro ⟨middle, hfirst, hlater⟩
        obtain ⟨first, hspells, rfl, -⟩ := after?_eq_some_iff.1 hfirst
        obtain ⟨later, hall, rfl⟩ := (ih hparts).1 hlater
        exact ⟨first ++ later, ⟨first, later, hspells, rfl, hall⟩, (List.append_assoc ..).symm⟩
      · rintro ⟨_, ⟨first, later, hspells, rfl, hall⟩, rfl⟩
        refine ⟨later ++ rest, ?_, (ih hparts).2 ⟨later, hall, rfl⟩⟩
        refine after?_eq_some_iff.2 ⟨first, hspells, List.append_assoc .., ?_⟩
        rintro rfl
        exact stopsAt_of_beginSolid hall (Bool.and_eq_true_iff.1 h).1 rest

end Part

theorem isDisabledCall_iff {text : List Char} :
    IsDisabledCall text ↔
      ∃ read, text = "//".toList ++ read ∧ Part.SpellsAll disabledCallParts read := by
  simp only [disabledCallParts, Part.SpellsAll, Part.Spells]
  constructor
  · rintro ⟨beforeTodo, beforeFix, behindFix, lineBreak, indentation, beforeCall, hblanks, hbreak,
      rfl⟩
    simp only [List.forall_mem_cons] at hblanks
    obtain ⟨htodo, hfix, hbehind, hindentation, hcall, -⟩ := hblanks
    exact ⟨_, rfl, _, _, htodo, rfl, _, _, rfl, rfl, _, _, hfix, rfl, _, _, rfl, rfl, _, _, hbehind,
      rfl, _, _, hbreak, rfl, _, _, hindentation, rfl, _, _, rfl, rfl, _, _, hcall, rfl, _, _, rfl,
      (List.append_nil _).symm, rfl⟩
  · rintro ⟨_, rfl, beforeTodo, _, htodo, rfl, _, _, rfl, rfl, beforeFix, _, hfix, rfl, _, _, rfl,
      rfl, behindFix, _, hbehind, rfl, lineBreak, _, hbreak, rfl, indentation, _, hindentation, rfl,
      _, _, rfl, rfl, beforeCall, _, hcall, rfl, _, _, rfl, rfl, rfl⟩
    refine ⟨beforeTodo, beforeFix, behindFix, lineBreak, indentation, beforeCall, ?_, hbreak, ?_⟩
    · simp only [List.forall_mem_cons]
      exact ⟨htodo, hfix, hbehind, hindentation, hcall, nofun⟩
    · rw [List.append_nil]

/-- A match is a disabled call. -/
theorem read_disabledCall_eq_some_iff {previous : Option Char} {text later : List Char}
    {value : Unit} :
    disabledCall.read previous text = some (value, later) ↔
      ∃ call, IsDisabledCall call ∧ text = call ++ later := by
  have hparts : Part.endBlanks disabledCallParts = true := by decide
  change readDisabledCall previous text = some (value, later) ↔ _
  constructor
  · intro h
    unfold readDisabledCall at h
    split at h
    · cases h
    · rename_i rest hslashes
      obtain ⟨behind, hrest, heq⟩ := Option.map_eq_some_iff.1 h
      cases heq
      obtain ⟨read, hread, rfl⟩ := (Part.afterAll?_eq_some_iff hparts).1 hrest
      refine ⟨"//".toList ++ read, isDisabledCall_iff.2 ⟨read, rfl, hread⟩, ?_⟩
      rw [Text.after?_eq_some_iff.1 hslashes, List.append_assoc]
  · rintro ⟨_, hcall, rfl⟩
    obtain ⟨read, rfl, hread⟩ := isDisabledCall_iff.1 hcall
    have hslashes : after? "//".toList ("//".toList ++ read ++ later) = some (read ++ later) :=
      Text.after?_eq_some_iff.2 (List.append_assoc ..)
    have hrest : Part.afterAll? disabledCallParts (read ++ later) = some later :=
      (Part.afterAll?_eq_some_iff hparts).2 ⟨read, hread, rfl⟩
    simp only [readDisabledCall, hslashes, hrest, Option.map_some]

/-! ### Where a disabled call ends -/

theorem IsBlanks.paren_notMem {text : List Char} (h : IsBlanks text) : '(' ∉ text := by
  intro hmem
  exact absurd (h '(' hmem) (by decide)

theorem IsLineBreak.paren_notMem {text : List Char} (h : IsLineBreak text) : '(' ∉ text := by
  rcases h with rfl | rfl
  · decide
  · decide

/-- The replacement in front of its opening parenthesis. -/
def enabledFront : List Char :=
  "await auditService.logAction".toList

theorem toList_enabledCall : enabledCall.toList = enabledFront ++ ['('] := by
  decide

theorem paren_notMem_enabledFront : '(' ∉ enabledFront := by
  decide

theorem getLast?_enabledFront : enabledFront.getLast? = some 'n' := by
  decide

namespace IsDisabledCall

variable {call before kept later : List Char}

/-- The only opening parenthesis of a disabled call is its last character, behind a letter `g`. -/
theorem exists_eq_append (h : IsDisabledCall call) :
    ∃ front, call = front ++ ['('] ∧ '(' ∉ front ∧ front.getLast? = some 'g' := by
  obtain ⟨beforeTodo, beforeFix, behindFix, lineBreak, indentation, beforeCall, hblanks, hbreak,
    rfl⟩ := h
  have hopening : "await auditService.createAuditLog(".toList =
      "await auditService.createAuditLog".toList ++ ['('] := by decide
  have hlast : "await auditService.createAuditLog".toList.getLast? = some 'g' := by decide
  refine ⟨"//".toList ++ (beforeTodo ++ ("TODO:".toList ++ (beforeFix ++
    ("Fix audit log".toList ++ (behindFix ++ (lineBreak ++ (indentation ++ ("//".toList ++
      (beforeCall ++ "await auditService.createAuditLog".toList))))))))), ?_, ?_, ?_⟩
  · simp only [hopening, List.append_assoc]
  · simp only [List.forall_mem_cons] at hblanks
    obtain ⟨htodo, hfix, hbehind, hindentation, hcall, -⟩ := hblanks
    simp only [List.mem_append, not_or]
    exact ⟨by decide, htodo.paren_notMem, by decide, hfix.paren_notMem, by decide,
      hbehind.paren_notMem, hbreak.paren_notMem, hindentation.paren_notMem, by decide,
      hcall.paren_notMem, by decide⟩
  · simp only [List.getLast?_append, hlast, Option.some_or]

/-- No disabled call ends at a first opening parenthesis that stands behind another character. -/
theorem not_begins_at_paren (h : IsDisabledCall call) (hparen : '(' ∉ before)
    (hlast : before.getLast? ≠ some 'g') : ¬ call <+: before ++ '(' :: later := by
  rintro ⟨behind, heq⟩
  obtain ⟨front, rfl, hfront, hg⟩ := h.exists_eq_append
  rw [List.append_assoc, List.singleton_append] at heq
  obtain ⟨rfl, -⟩ := Text.eq_of_append_cons_eq hfront hparen heq
  exact hlast hg

/-- A disabled call that begins in front of a replacement ends there as well. -/
theorem begins_before_enabledCall (h : IsDisabledCall call)
    (hbegins : call <+: kept ++ (enabledCall.toList ++ later)) : call <+: kept := by
  by_cases hmem : '(' ∈ kept
  · obtain ⟨first, rest, rfl, hfirst⟩ := List.eq_append_cons_of_mem hmem
    obtain ⟨front, rfl, hfront, -⟩ := h.exists_eq_append
    obtain ⟨behind, heq⟩ := hbegins
    simp only [List.append_assoc, List.cons_append, List.nil_append] at heq
    obtain ⟨rfl, -⟩ := Text.eq_of_append_cons_eq hfront hfirst heq
    exact ⟨rest, List.append_assoc ..⟩
  · have hparen : '(' ∉ kept ++ enabledFront := by
      rw [List.mem_append, not_or]
      exact ⟨hmem, paren_notMem_enabledFront⟩
    have hlast : (kept ++ enabledFront).getLast? ≠ some 'g' := by
      rw [List.getLast?_append, getLast?_enabledFront, Option.some_or]
      decide
    rw [toList_enabledCall, List.append_assoc, List.singleton_append,
      ← List.append_assoc kept] at hbegins
    exact absurd hbegins (h.not_begins_at_paren hparen hlast)

/-- A disabled call that does not end at the first opening parenthesis stands behind it. -/
theorem stands_behind (h : IsDisabledCall call) (hparen : '(' ∉ before)
    (hlast : before.getLast? ≠ some 'g') (hinside : call <:+: before ++ '(' :: later) :
    call <:+: later := by
  induction before with
  | nil =>
      rcases List.infix_cons_iff.1 hinside with hbegins | hlater
      · exact absurd hbegins (h.not_begins_at_paren hparen hlast)
      · exact hlater
  | cons c before ih =>
      rw [List.cons_append] at hinside
      rcases List.infix_cons_iff.1 hinside with hbegins | hrest
      · exact absurd hbegins (h.not_begins_at_paren hparen hlast)
      · apply ih (fun hmem => hparen (List.mem_cons_of_mem c hmem)) ?_ hrest
        intro hg
        exact hlast (by rw [List.getLast?_cons, hg, Option.getD_some])

end IsDisabledCall

/-! ### Replacements -/

theorem not_holdsDisabledCall_append_left {kept later : List Char}
    (h : ¬ HoldsDisabledCall (kept ++ later)) : ¬ HoldsDisabledCall later := by
  rintro ⟨call, hcall, hinside⟩
  exact h ⟨call, hcall, hinside.trans (List.suffix_append kept later).isInfix⟩

namespace RestoresCalls

variable {text left call kept : List Char} {count : Nat}

/-- A disabled call that begins in what is left began in the text. -/
theorem begins_before (h : RestoresCalls text left count) (hcall : IsDisabledCall call)
    (hbegins : call <+: kept ++ left) : call <+: kept ++ text := by
  induction h generalizing kept with
  | nil => exact hbegins
  | @keep c text left count hnone h ih =>
      rw [List.append_cons] at hbegins ⊢
      exact ih hbegins
  | @restore found text left count hfound h ih =>
      exact (hcall.begins_before_enabledCall hbegins).trans (List.prefix_append kept _)

/-- No disabled call is left. -/
theorem not_holdsDisabledCall (h : RestoresCalls text left count) : ¬ HoldsDisabledCall left := by
  rintro ⟨call, hcall, hinside⟩
  induction h with
  | nil =>
      obtain ⟨front, rfl, -⟩ := hcall.exists_eq_append
      exact absurd (List.infix_nil.1 hinside) (by simp)
  | @keep c text left count hnone h ih =>
      rcases List.infix_cons_iff.1 hinside with hbegins | hlater
      · exact hnone call hcall (@begins_before _ _ _ [c] _ h hcall hbegins)
      · exact ih hlater
  | @restore found text left count hfound h ih =>
      rw [toList_enabledCall, List.append_assoc, List.singleton_append] at hinside
      have hlast : enabledFront.getLast? ≠ some 'g' := by
        rw [getLast?_enabledFront]
        decide
      exact ih (hcall.stands_behind paren_notMem_enabledFront hlast hinside)

/-- The text is cut at the disabled calls that are replaced. -/
theorem exists_cuts (h : RestoresCalls text left count) :
    ∃ (first : List Char) (cuts : List (List Char × List Char)),
      text = first ++ cuts.flatMap (fun cut => cut.1 ++ cut.2) ∧
        left = first ++ cuts.flatMap (fun cut => enabledCall.toList ++ cut.2) ∧
        cuts.length = count ∧ ∀ cut ∈ cuts, IsDisabledCall cut.1 := by
  induction h with
  | nil => exact ⟨[], [], rfl, rfl, rfl, nofun⟩
  | @keep c text left count hnone h ih =>
      obtain ⟨first, cuts, rfl, rfl, rfl, hcuts⟩ := ih
      exact ⟨c :: first, cuts, rfl, rfl, rfl, hcuts⟩
  | @restore found text left count hfound h ih =>
      obtain ⟨first, cuts, rfl, rfl, rfl, hcuts⟩ := ih
      refine ⟨[], (found, first) :: cuts, ?_, ?_, rfl, List.forall_mem_cons.2 ⟨hfound, hcuts⟩⟩
      · rw [List.flatMap_cons, List.nil_append, List.append_assoc]
      · rw [List.flatMap_cons, List.nil_append, List.append_assoc]

theorem eq_of_count_eq_zero (h : RestoresCalls text left count) (hcount : count = 0) :
    left = text := by
  induction h with
  | nil => rfl
  | keep hnone h ih => rw [ih hcount]
  | restore hcall h => cases hcount

/-- Where there is no disabled call, nothing is replaced. -/
theorem eq_of_not_holdsDisabledCall (h : RestoresCalls text left count)
    (hnot : ¬ HoldsDisabledCall text) : left = text ∧ count = 0 := by
  induction h with
  | nil => exact ⟨rfl, rfl⟩
  | @keep c text left count hnone h ih =>
      obtain ⟨rfl, rfl⟩ := ih (@not_holdsDisabledCall_append_left [c] text hnot)
      exact ⟨rfl, rfl⟩
  | restore hcall h => exact absurd ⟨_, hcall, (List.prefix_append ..).isInfix⟩ hnot

end RestoresCalls

theorem restoresCalls_pieces (previous : Option Char) (text : List Char) :
    RestoresCalls text ((disabledCall.pieces previous text).flatMap restored)
      ((disabledCall.pieces previous text).filterMap Text.Piece.value?).length := by
  induction previous, text using Text.Pattern.search_induction disabledCall with
  | nil previous =>
      rw [Text.Pattern.pieces]
      exact .nil
  | kept previous c text hread ih =>
      rw [Text.Pattern.pieces_of_no_match hread]
      refine .keep ?_ ih
      rintro call hcall ⟨later, heq⟩
      have hsome : disabledCall.read previous (c :: text) = some ((), later) :=
        read_disabledCall_eq_some_iff.2 ⟨call, hcall, heq.symm⟩
      exact Option.some_ne_none _ (hsome.symm.trans hread)
  | found previous value matched rest hread ih =>
      rw [Text.Pattern.pieces_of_match hread, List.flatMap_cons]
      obtain ⟨call, hcall, htext⟩ := read_disabledCall_eq_some_iff.1 hread
      obtain rfl := List.append_cancel_right htext
      exact .restore hcall ih

theorem restoresCalls_restore (text : String) :
    RestoresCalls text.toList (restore text).1.toList (restore text).2 := by
  have htext : (restore text).1.toList = (disabledCall.pieces none text.toList).flatMap restored :=
    String.toList_ofList
  rw [htext]
  exact restoresCalls_pieces none text.toList

theorem restore_of_not_holdsDisabledCall {text : String} (h : ¬ HoldsDisabledCall text.toList) :
    restore text = (text, 0) := by
  obtain ⟨htext, hcount⟩ := (restoresCalls_restore text).eq_of_not_holdsDisabledCall h
  exact Prod.ext (String.toList_inj.1 htext) hcount

/-- There is nothing left to restore. -/
theorem restore_restore (text : String) : restore (restore text).1 = ((restore text).1, 0) :=
  restore_of_not_holdsDisabledCall (restoresCalls_restore text).not_holdsDisabledCall

/-- Restoring cuts a text at as many disabled calls as it counts, keeps what is between them, puts
the call that is in use now in the place of each, and leaves no disabled call. It counts none
exactly when it leaves the text as it is, and it has nothing to do on what it left. -/
theorem restore_replaces_all_disabled_calls (text : String) :
    (∃ (first : List Char) (cuts : List (List Char × List Char)),
      text.toList = first ++ cuts.flatMap (fun cut => cut.1 ++ cut.2) ∧
        (restore text).1.toList =
          first ++ cuts.flatMap (fun cut => enabledCall.toList ++ cut.2) ∧
        cuts.length = (restore text).2 ∧ ∀ cut ∈ cuts, IsDisabledCall cut.1) ∧
    ¬ HoldsDisabledCall (restore text).1.toList ∧
    ((restore text).2 = 0 ↔ (restore text).1 = text) ∧
    restore (restore text).1 = ((restore text).1, 0) := by
  have hrestores := restoresCalls_restore text
  have hleft := hrestores.not_holdsDisabledCall
  refine ⟨hrestores.exists_cuts, hleft, ?_, restore_of_not_holdsDisabledCall hleft⟩
  constructor
  · intro hcount
    exact String.toList_inj.1 (hrestores.eq_of_count_eq_zero hcount)
  · intro heq
    rw [heq] at hleft
    exact (hrestores.eq_of_not_holdsDisabledCall hleft).2

end TableModels.AuditCalls
