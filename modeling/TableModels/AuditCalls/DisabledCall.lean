import TableModels.Text.LeftmostMatch
import TableModels.Text.Pieces

/-! # Disabled audit calls

A call that records an audit event may have been disabled by a comment that says so, with the call
itself in the comment on the next line. Restoring replaces the two comments, up to and including the
opening parenthesis of the call, by the call that is in use now. -/

namespace TableModels.AuditCalls

/-- A part of the text of a disabled call. -/
inductive Part where
  /-- The text itself. -/
  | literal (text : List Char)
  /-- Any number of spaces and tabs. -/
  | blanks
  /-- A line feed, with or without a carriage return before it. -/
  | lineBreak

namespace Part

/-- The text behind a part at the start of a text. -/
def after? : Part → List Char → Option (List Char)
  | literal start, text => Text.after? start text
  | blanks, text => some (text.dropWhile fun c => c == ' ' || c == '\t')
  | lineBreak, '\r' :: '\n' :: rest => some rest
  | lineBreak, '\n' :: rest => some rest
  | lineBreak, _ => none

/-- The text behind a sequence of parts at the start of a text. -/
def afterAll? : List Part → List Char → Option (List Char)
  | [], text => some text
  | part :: parts, text => (part.after? text).bind (afterAll? parts)

theorem after?_splits {part : Part} {text rest : List Char} (h : part.after? text = some rest) :
    ∃ read, text = read ++ rest := by
  unfold after? at h
  split at h
  · exact ⟨_, Text.after?_eq_some_iff.1 h⟩
  · cases h
    exact ⟨_, (List.takeWhile_append_dropWhile ..).symm⟩
  · cases h
    exact ⟨['\r', '\n'], rfl⟩
  · cases h
    exact ⟨['\n'], rfl⟩
  · cases h

theorem afterAll?_splits {parts : List Part} {text rest : List Char}
    (h : afterAll? parts text = some rest) : ∃ read, text = read ++ rest := by
  induction parts generalizing text with
  | nil =>
      cases h
      exact ⟨[], rfl⟩
  | cons part parts ih =>
      obtain ⟨middle, hfirst, hrest⟩ := Option.bind_eq_some_iff.1 h
      obtain ⟨read1, rfl⟩ := after?_splits hfirst
      obtain ⟨read2, rfl⟩ := ih hrest
      exact ⟨read1 ++ read2, by simp⟩

end Part

/-- The parts of a disabled call behind its first two slashes. -/
def disabledCallParts : List Part := [
  .blanks, .literal "TODO:".toList, .blanks, .literal "Fix audit log".toList, .blanks, .lineBreak,
  .blanks, .literal "//".toList, .blanks, .literal "await auditService.createAuditLog(".toList]

/-- A disabled call at the start of a text. -/
def readDisabledCall (_previous : Option Char) (text : List Char) : Option (Unit × List Char) :=
  match Text.after? "//".toList text with
  | none => none
  | some rest => (Part.afterAll? disabledCallParts rest).map fun later => ((), later)

theorem readDisabledCall_splits {previous : Option Char} {text later : List Char} {value : Unit}
    (h : readDisabledCall previous text = some (value, later)) :
    ∃ matched, matched ≠ [] ∧ text = matched ++ later := by
  unfold readDisabledCall at h
  split at h
  · cases h
  · rename_i rest hslashes
    obtain ⟨after, hparts, heq⟩ := Option.map_eq_some_iff.1 h
    simp only [Prod.mk.injEq, true_and] at heq
    subst heq
    obtain ⟨read, hread⟩ := Part.afterAll?_splits hparts
    refine ⟨"//".toList ++ read, by simp, ?_⟩
    rw [Text.after?_eq_some_iff.1 hslashes, hread, List.append_assoc]

/-- The pattern of disabled calls. -/
def disabledCall : Text.Pattern Unit :=
  ⟨readDisabledCall, readDisabledCall_splits⟩

/-- The call that replaces a disabled one. -/
def enabledCall : String :=
  "await auditService.logAction("

/-- The text that a piece is restored to. -/
def restored : Text.Piece Unit → List Char
  | .kept c => [c]
  | .found _ _ => enabledCall.toList

/-- The text with its disabled calls restored, and their number. -/
def restore (text : String) : String × Nat :=
  let pieces := disabledCall.pieces none text.toList
  (String.ofList (pieces.flatMap restored), (pieces.filterMap Text.Piece.value?).length)

end TableModels.AuditCalls
