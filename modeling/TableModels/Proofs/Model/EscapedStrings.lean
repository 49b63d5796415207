import TableModels.Model.Declaration
import TableModels.Proofs.Document.QuotedText

/-!
# Strings in attributes and indexes

A default, the name of a column and the name of an index stand between quotes, with a backslash in
front of each of their backslashes and quotes. A reader that takes the character behind a backslash
as it is stops at the quote that closes the literal, and it has read the string. The text of an
attribute or an index also tells its string from every other string (`escaped_strings_read_back`).

## Implementation notes

The fields of an index are written as they are, with quotes if they have any, so the literal does
not begin at the first quote of the text. It is found from the end: inside a literal every quote
stands behind a backslash, and the quote that opens it never does.
-/

namespace TableModels.Text.QuotedLiteral

/-! ### What the reader accepts -/

/-- The characters between two quotes stand for a value: a backslash and a character for that
character, and a character that is not special for itself. -/
inductive Spells : List Char → List Char → Prop
  | nil : Spells [] []
  | behindBackslash {c : Char} {inner value : List Char} (hrest : Spells inner value) :
      Spells ('\\' :: c :: inner) (c :: value)
  | plain {c : Char} {inner value : List Char} (hplain : isSpecial c = false)
      (hrest : Spells inner value) : Spells (c :: inner) (c :: value)

/-- The reader stops at the first quote that no backslash takes. -/
theorem read_eq_some_iff {text value later : List Char} :
    read text = some (value, later) ↔ ∃ inner, text = inner ++ '"' :: later ∧ Spells inner value := by
  constructor
  · intro h
    fun_induction read text generalizing value with
    | case1 => cases h
    | case2 rest =>
        cases h
        exact ⟨[], rfl, .nil⟩
    | case3 c rest ih =>
        obtain ⟨word, rfl, hword⟩ := map_cons_eq_some_iff.1 h
        obtain ⟨inner, rfl, hinner⟩ := ih hword
        exact ⟨'\\' :: c :: inner, rfl, .behindBackslash hinner⟩
    | case4 c rest hquote hbackslash ih =>
        obtain ⟨word, rfl, hword⟩ := map_cons_eq_some_iff.1 h
        obtain ⟨inner, rfl, hinner⟩ := ih hword
        refine ⟨c :: inner, rfl, .plain (Bool.eq_false_iff.2 fun hspecial => ?_) hinner⟩
        obtain rfl | rfl := isSpecial_eq_true_iff.1 hspecial
        · -- a backslash is followed by the closing quote at least
          cases inner with
          | nil => exact hbackslash _ _ rfl rfl
          | cons d inner => exact hbackslash _ _ rfl rfl
        · exact hquote rfl
  · rintro ⟨inner, rfl, hinner⟩
    induction hinner with
    | nil => rfl
    | behindBackslash _ ih => exact read_backslash_eq_some_iff.2 ⟨_, rfl, ih⟩
    | plain hplain _ ih => exact (read_plain_eq_some_iff hplain).2 ⟨_, rfl, ih⟩

/-- The text between the quotes of a literal for a value: whatever follows its closing quote, the
reader stops there and has read the value, and at no quote before it the reader could stop. -/
structure IsLiteralOf (inner value : List Char) : Prop where
  readsBack : ∀ later, read (inner ++ '"' :: later) = some (value, later)
  staysOpen : ∀ before behind, inner = before ++ '"' :: behind → ¬ ∃ word, Spells before word

theorem isLiteralOf_of_spells {inner value : List Char} (h : Spells inner value) :
    IsLiteralOf inner value := by
  have hread : ∀ later, read (inner ++ '"' :: later) = some (value, later) :=
    fun later => read_eq_some_iff.2 ⟨inner, rfl, h⟩
  refine ⟨hread, ?_⟩
  rintro before behind rfl ⟨word, hword⟩
  -- the reader would stop at two quotes
  have hearly : read ((before ++ '"' :: behind) ++ ['"']) = some (word, behind ++ ['"']) :=
    read_eq_some_iff.2 ⟨before, by simp, hword⟩
  rw [hread []] at hearly
  simp at hearly

/-! ### Escaping -/

theorem escape_eq_escapeBy (text : List Char) : escape text = escapeBy isSpecial text := by
  induction text with
  | nil => rfl
  | cons c rest ih =>
      rw [escape, ih]
      by_cases h : isSpecial c = true
      · rw [if_pos (isSpecial_eq_true_iff.1 h), escapeBy_cons_of_marked h]
      · rw [if_neg (mt isSpecial_eq_true_iff.2 h), escapeBy_cons_of_unmarked (Bool.eq_false_iff.2 h)]

/-- Escaping goes in two rounds: every backslash is doubled first, and then a backslash is put in
front of every quote. -/
def escapeInRounds (text : List Char) : List Char :=
  escapeBy (· == '"') (escapeBy (· == '\\') text)

/-- The second round does not meet the backslashes that mark, so one pass over the text does the
same. -/
theorem escapeInRounds_eq_escape (text : List Char) : escapeInRounds text = escape text := by
  have hchar : ∀ c, escapeBy (· == '"') (if c == '\\' then ['\\', c] else [c]) =
      if isSpecial c then ['\\', c] else [c] := by
    intro c
    by_cases hbackslash : c = '\\'
    · subst hbackslash
      rfl
    · by_cases hquote : c = '"'
      · subst hquote
        rfl
      · simp [escapeBy, isSpecial, hbackslash, hquote]
  calc
    escapeInRounds text =
        text.flatMap fun c => escapeBy (· == '"') (if c == '\\' then ['\\', c] else [c]) :=
      List.flatMap_assoc
    _ = escapeBy isSpecial text := by rw [funext hchar, escapeBy]
    _ = escape text := (escape_eq_escapeBy text).symm

/-- In the other order the marks of the quotes would be doubled, and the literal would end at the
first quote of the text. -/
example : read (escapeBy (· == '\\') (escapeBy (· == '"') ['a', '"', 'b']) ++ ['"']) =
    some (['a', '\\'], ['b', '"']) := by decide

theorem spells_escape (value : List Char) : Spells (escape value) value := by
  obtain ⟨inner, heq, hinner⟩ := read_eq_some_iff.1 (read_escape value [])
  rwa [List.append_cancel_right heq]

variable {marked : Char → Bool}

/-- A quote that is marked stands behind a backslash. -/
theorem getLast?_of_escapeBy_eq (hquote : marked '"' = true) {text before behind : List Char}
    (h : escapeBy marked text = before ++ '"' :: behind) : before.getLast? = some '\\' := by
  induction text generalizing before with
  | nil => simp [escapeBy] at h
  | cons c rest ih =>
      cases hc : marked c with
      | true =>
          rw [escapeBy_cons_of_marked hc] at h
          cases before with
          | nil => cases h
          | cons d before =>
              cases before with
              | nil => rw [← (List.cons.inj h).1]; rfl
              | cons e before =>
                  have hlast := ih (List.cons.inj (List.cons.inj h).2).2
                  rw [List.getLast?_cons, List.getLast?_cons, hlast]
                  rfl
      | false =>
          rw [escapeBy_cons_of_unmarked hc] at h
          cases before with
          | nil =>
              rw [(List.cons.inj h).1, hquote] at hc
              cases hc
          | cons d before =>
              have hlast := ih (List.cons.inj h).2
              rw [List.getLast?_cons, hlast]
              rfl

/-- Where a literal ends a text, the quote that opens it is found from the end. -/
theorem append_escapeBy_inj (hquote : marked '"' = true) {before other text word later : List Char}
    (hbefore : before.getLast? ≠ some '\\') (hother : other.getLast? ≠ some '\\') :
    before ++ '"' :: (escapeBy marked text ++ later) =
        other ++ '"' :: (escapeBy marked word ++ later) ↔ before = other ∧ text = word := by
  -- an opening quote further right would be a quote inside the other literal
  have hsame : ∀ {first text word : List Char} {more : List Char},
      (first ++ more).getLast? ≠ some '\\' →
      '"' :: (escapeBy marked text ++ later) = more ++ '"' :: (escapeBy marked word ++ later) →
        more = [] ∧ text = word := by
    intro first text word more hlast heq
    cases more with
    | nil =>
        have hescaped := List.append_cancel_right (List.cons.inj heq).2
        exact ⟨rfl, escapeBy_injective marked hescaped⟩
    | cons c more =>
        rw [List.cons_append] at heq
        obtain ⟨rfl, htail⟩ := List.cons.inj heq
        have hescaped : escapeBy marked text = more ++ '"' :: escapeBy marked word :=
          List.append_cancel_right (htail.trans (List.append_assoc more (_ :: _) later).symm)
        have hbehind := getLast?_of_escapeBy_eq hquote hescaped
        rw [List.getLast?_append, List.getLast?_cons, hbehind] at hlast
        exact absurd rfl hlast
  constructor
  · intro h
    obtain ⟨more, rfl, heq⟩ | ⟨more, rfl, heq⟩ := List.append_eq_append_iff.1 h
    · obtain ⟨rfl, htext⟩ := hsame hother heq
      exact ⟨(List.append_nil _).symm, htext⟩
    · obtain ⟨rfl, htext⟩ := hsame hbefore heq
      exact ⟨List.append_nil _, htext.symm⟩
  · rintro ⟨rfl, rfl⟩
    rfl

end TableModels.Text.QuotedLiteral

namespace TableModels

open Text.QuotedLiteral

/-- What carries a string between quotes: a default, the column name of a field, or the name of an
index over fields. -/
inductive StringPlace where
  | defaultValue
  | columnName
  | indexName (kind : IndexKind) (fields : List String)

namespace StringPlace

/-- The text of the attribute or index that carries a string. -/
def render : StringPlace → String → String
  | defaultValue, value => (Attribute.defaultString value).render
  | columnName, value => (Attribute.map value).render
  | indexName kind fields, value => IndexDeclaration.render ⟨kind, some value, fields⟩

/-- What stands in front of the opening quote. -/
def opening : StringPlace → String
  | defaultValue => "@default("
  | columnName => "@map("
  | indexName kind fields =>
      IndexDeclaration.keyword kind ++ "([" ++ String.intercalate ", " fields ++ "]" ++ ", map: "

theorem render_eq (place : StringPlace) (value : String) :
    place.render value = place.opening ++ write value ++ ")" := by
  cases place <;> rfl

theorem toList_render (place : StringPlace) (value : String) :
    (place.render value).toList =
      place.opening.toList ++ '"' :: (escape value.toList ++ ['"', ')']) := by
  rw [render_eq, write]
  simp only [String.toList_append, String.toList_ofList, List.append_assoc]
  rfl

/-- The opening quote stands behind a parenthesis or a blank. -/
theorem getLast?_opening_ne (place : StringPlace) : place.opening.toList.getLast? ≠ some '\\' := by
  cases place with
  | defaultValue => decide
  | columnName => decide
  | indexName kind fields =>
      have hlast : ", map: ".toList.getLast? = some ' ' := by decide
      rw [opening, String.toList_append, List.getLast?_append, hlast]
      exact nofun

theorem render_eq_render_iff {place other : StringPlace} {value word : String} :
    place.render value = other.render word ↔ place.opening = other.opening ∧ value = word := by
  rw [← String.toList_inj, toList_render, toList_render, escape_eq_escapeBy, escape_eq_escapeBy,
    append_escapeBy_inj rfl (getLast?_opening_ne place) (getLast?_opening_ne other),
    String.toList_inj, String.toList_inj]

/-- In the text of a default, a column name or an index name the string stands between quotes, with
a closing parenthesis behind them. It is escaped in such a way that the reader stops at the closing
quote and nowhere before it, and has read the string then. No other string is written as the same
text, wherever it stands. -/
theorem escaped_strings_read_back (place : StringPlace) (value : String) :
    (place.render value).toList =
        place.opening.toList ++ '"' :: (escapeInRounds value.toList ++ ['"', ')']) ∧
      IsLiteralOf (escapeInRounds value.toList) value.toList ∧
      ∀ (other : StringPlace) (word : String), place.render value = other.render word ↔
        place.opening = other.opening ∧ value = word := by
  rw [escapeInRounds_eq_escape]
  refine ⟨toList_render place value, ?_, ?_⟩
  · exact isLiteralOf_of_spells (spells_escape value.toList)
  · intro other word
    exact render_eq_render_iff

end StringPlace

end TableModels
