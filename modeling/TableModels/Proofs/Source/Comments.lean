import TableModels.Proofs.Script.TrailingComment
import TableModels.Source.TableReading

/-!
# Comments and what is extracted

The tables of a document are read from its tree, which has no comments. A line comment behind the
document is therefore without effect, except that the dialect is detected in the text: a comment
that mentions the table function of the second dialect chooses that dialect for the whole document.
-/

namespace TableModels

namespace Text

/-- A text that lacks a character occurs on one side of it. -/
theorem occursIn_append_cons_iff {needle : List Char} {c : Char} (h : c ∉ needle)
    (first second : List Char) :
    occursIn needle (first ++ c :: second) = true ↔
      occursIn needle first = true ∨ occursIn needle second = true := by
  rw [occursIn_iff, occursIn_iff, occursIn_iff]
  constructor
  · rintro ⟨before, later, htext⟩
    rcases List.append_eq_append_iff.mp htext with
      ⟨inner, hstart, hend⟩ | ⟨inner, hstart, -⟩
    · -- the character stands before, inside or behind what occurs
      cases inner with
      | nil => exact Or.inl ⟨before, [], by simpa using hstart.symm⟩
      | cons d inner =>
          obtain ⟨rfl, rfl⟩ := List.cons.inj hend
          rcases List.append_eq_append_iff.mp hstart with
            ⟨between, -, hneedle⟩ | ⟨between, -, hneedle⟩
          · rw [hneedle] at h
            exact absurd (List.mem_append_right _ List.mem_cons_self) h
          · cases between with
            | nil =>
                rw [List.nil_append] at hneedle
                exact absurd (hneedle ▸ List.mem_cons_self) h
            | cons d between =>
                have hinner : inner = between ++ needle := (List.cons.inj hneedle).2
                exact Or.inr ⟨between, later, congrArg (· ++ later) hinner⟩
    · exact Or.inl ⟨before, inner, hstart⟩
  · rintro (⟨before, later, rfl⟩ | ⟨before, later, rfl⟩)
    · exact ⟨before, later ++ c :: second, by simp⟩
    · exact ⟨first ++ c :: before, later, by simp⟩

end Text

/-- The document with a line comment on a new line behind it. -/
def withComment (source text : String) : String :=
  source ++ "\n// " ++ text

theorem toList_withComment (source text : String) :
    (withComment source text).toList =
      source.toList ++ '\n' :: '/' :: '/' :: ' ' :: text.toList := by
  simp [withComment]

/-- No line ends in the text. -/
def isOneLine (text : String) : Bool :=
  text.toList.all fun c => !Script.isLineEnd c

/-- The document mentions the table function of the second dialect. -/
def mentionsPgTable (source : String) : Bool :=
  Text.includes source "pgTable("

/-- A comment adds a mention of the function if there is one in it. -/
theorem mentionsPgTable_withComment (source text : String) :
    mentionsPgTable (withComment source text) = true ↔
      mentionsPgTable source = true ∨ mentionsPgTable text = true := by
  -- the function has neither the line feed nor the space of the comment in its name
  have hspace : Text.occursIn "pgTable(".toList (['/', '/'] ++ ' ' :: text.toList) = true ↔
      Text.occursIn "pgTable(".toList ['/', '/'] = true ∨
        Text.occursIn "pgTable(".toList text.toList = true :=
    Text.occursIn_append_cons_iff (by decide) ['/', '/'] text.toList
  have hslashes : Text.occursIn "pgTable(".toList ['/', '/'] = false := by decide
  rw [hslashes] at hspace
  rw [mentionsPgTable, Text.includes, toList_withComment,
    Text.occursIn_append_cons_iff (by decide)]
  exact or_congr_right (hspace.trans (by simp [mentionsPgTable, Text.includes]))

theorem resolve_auto (source : String) :
    DialectChoice.auto.resolve source = if mentionsPgTable source then .pg else .mysql := rfl

/-- A comment turns the dialect exactly when the dialect is detected, and the only mention of the
function is in the comment. -/
theorem resolve_withComment_iff (choice : DialectChoice) (source text : String) :
    choice.resolve (withComment source text) = choice.resolve source ↔
      (choice = .auto → mentionsPgTable text = true → mentionsPgTable source = true) := by
  cases choice with
  | mysql => simp [DialectChoice.resolve]
  | pg => simp [DialectChoice.resolve]
  | auto =>
      rw [resolve_auto, resolve_auto]
      have hmentions := mentionsPgTable_withComment source text
      by_cases hsource : mentionsPgTable source = true
      · simp [hsource, hmentions]
      · by_cases htext : mentionsPgTable text = true
        · simp [hsource, htext, hmentions]
        · have hneither : ¬mentionsPgTable (withComment source text) = true :=
            fun hboth => (hmentions.mp hboth).elim hsource htext
          simp [hsource, htext, hneither]

/-- A document of the first dialect. -/
def usersSource : String :=
  "const users = mysqlTable(\"users\", \x7b id: int() \x7d);"

theorem endsInCode_usersSource : Script.EndsInCode usersSource.toList :=
  ⟨[], by decide +kernel, rfl⟩

end TableModels
