import Mathlib.Data.List.Induction
import TableModels.Proofs.Column.Lexing
import TableModels.Proofs.Text.Squashing
import TableModels.Proofs.Unicode.CharacterClasses

/-!
# Changes of white space that the reader does not see

The reader of column expressions cuts a text at white space that stands outside of literals. A
change that keeps each character that is no white space, leaves white space where white space is and
does not move the end of a literal, leaves the reader the same tokens. `Carries` says this of a
change, and `Carries.tokens_eq` draws the conclusion.

## Implementation notes

Squashing a text is such a change, and so is adding white space behind it. The reader and the
squasher find the ends of literals by themselves, each in its own way, so that the two agree on them
is shown here, for every text (`quoted_squashInside`).
-/

namespace TableModels.Column

open Source (isIdentRest)
open Text (isQuote squashInside squashOutside squeezed)
open Unicode (isWhitespace)

/-! ### Classes of characters -/

/-- A character of a lexeme outside of literals. -/
def IsPlain (c : Char) : Prop :=
  isWhitespace c = false ∧ isQuote c = false

theorem isPlain_of_isIdentRest {c : Char} (h : isIdentRest c = true) : IsPlain c := by
  constructor
  · apply Bool.eq_false_iff.2
    intro hspace
    rw [isIdentRest, Unicode.isAlphanumeric_of_isWhitespace hspace] at h
    simp only [Bool.false_or, Bool.or_eq_true, beq_iff_eq] at h
    rcases h with rfl | rfl <;> exact absurd hspace (by decide)
  · apply Bool.eq_false_iff.2
    intro hquote
    simp only [isQuote, Bool.or_eq_true, beq_iff_eq] at hquote
    rcases hquote with (rfl | rfl) | rfl <;> exact absurd h (by decide +kernel)

theorem isPlain_of_isNumberRest {c : Char} (h : isNumberRest c = true) : IsPlain c := by
  constructor
  · apply Bool.eq_false_iff.2
    intro hspace
    simp only [isNumberRest, Char.isDigit, Bool.or_eq_true, Bool.and_eq_true, decide_eq_true_eq,
      beq_iff_eq] at h
    rcases h with (h | rfl) | rfl
    · obtain ⟨r, hr, hlow, hhigh⟩ := Unicode.CodeRange.anyContains_iff.1 hspace
      have hdigit : 48 ≤ c.toNat ∧ c.toNat ≤ 57 := h
      have hapart : ∀ r ∈ Unicode.whitespaceRanges, r.last < 48 ∨ 57 < r.first := by decide
      rcases hapart r hr with hlt | hlt <;> omega
    · exact absurd hspace (by decide)
    · exact absurd hspace (by decide)
  · apply Bool.eq_false_iff.2
    intro hquote
    simp only [isQuote, Bool.or_eq_true, beq_iff_eq] at hquote
    rcases hquote with (rfl | rfl) | rfl <;> exact absurd h (by decide)

theorem isPlain_of_isPunctuation {c : Char} (h : isPunctuation c = true) : IsPlain c := by
  have hall : ("()\x7b\x7d[],:.<>-=!|&?+*/;%".toList.all fun d =>
      !isWhitespace d && !isQuote d) = true := by decide +kernel
  have hc : c ∈ "()\x7b\x7d[],:.<>-=!|&?+*/;%".toList := by simpa [isPunctuation] using h
  simpa [IsPlain] using List.all_eq_true.1 hall c hc

theorem isQuote_iff {c : Char} : isQuote c = true ↔ c = '"' ∨ c = '\'' ∨ c = '\x60' := by
  simp [isQuote, or_assoc]

theorem isWhitespace_of_isQuote {c : Char} (h : isQuote c = true) : isWhitespace c = false := by
  rcases isQuote_iff.1 h with rfl | rfl | rfl <;> decide

/-! ### Changes that the reader does not see -/

/-- A change of texts, told outside and inside of literals, that changes white space alone. What it
makes of the white space in front of a token is `gapOf`. -/
structure Carries (outside : List Char → List Char) (inside : Char → List Char → List Char)
    (gapOf : List Char → List Char) : Prop where
  solid : ∀ gap c rest, IsBlank gap → isWhitespace c = false →
    outside (gap ++ c :: rest) =
      gapOf gap ++ c :: (if isQuote c then inside c rest else outside rest)
  blank : ∀ text, IsBlank text → IsBlank (outside text)
  gap : ∀ gap, IsBlank gap → IsBlank (gapOf gap) ∧ (gapOf gap = [] ↔ gap = [])
  literal : ∀ quote rest, isQuote quote = true →
    quoted quote (inside quote rest) =
      (quoted quote rest).map fun (value, text, later) => (value, text, outside later)

/-- The token without its place and with other white space in front of it. -/
def Token.regap (gapOf : List Char → List Char) (token : Token) : Token :=
  { token with offset := 0, gap := gapOf token.gap }

namespace Carries

variable {outside : List Char → List Char} {inside : Char → List Char → List Char}
variable {gapOf : List Char → List Char}

theorem outside_cons (h : Carries outside inside gapOf) {c : Char} (hc : isWhitespace c = false)
    (rest : List Char) :
    outside (c :: rest) = c :: (if isQuote c then inside c rest else outside rest) := by
  have hempty : gapOf [] = [] := (h.gap [] isBlank_nil).2.2 rfl
  have hsolid := h.solid [] c rest isBlank_nil hc
  rwa [hempty, List.nil_append, List.nil_append] at hsolid

/-- Where no lexeme begins, none begins behind the change. -/
theorem isWhitespace_head (h : Carries outside inside gapOf) {text : List Char}
    (htext : ∀ c rest, text = c :: rest → isWhitespace c = true) :
    ∀ c rest, outside text = c :: rest → isWhitespace c = true := by
  intro c rest heq
  rcases isBlank_or_exists_solid text with hblank | ⟨gap, d, later, rfl, hgap, hd⟩
  · exact h.blank text hblank c (by simp [heq])
  · cases gap with
    | nil =>
        rw [htext d later rfl] at hd
        cases hd
    | cons e gap =>
        obtain ⟨hblank, hnil⟩ := h.gap (e :: gap) hgap
        rw [h.solid _ _ _ hgap hd] at heq
        cases hgapOf : gapOf (e :: gap) with
        | nil => exact absurd (hnil.1 hgapOf) (List.cons_ne_nil e gap)
        | cons f others =>
            rw [hgapOf] at heq hblank
            obtain ⟨rfl, -⟩ := List.cons.inj heq
            exact hblank f (by simp)

/-- A run of plain characters is as long behind the change as before it. -/
theorem takeWhile_dropWhile (h : Carries outside inside gapOf) {continues : Char → Bool}
    (hplain : ∀ c, continues c = true → IsPlain c) (text : List Char) :
    (outside text).takeWhile continues = text.takeWhile continues ∧
      (outside text).dropWhile continues = outside (text.dropWhile continues) := by
  have hstop : ∀ text : List Char, (∀ c rest, text = c :: rest → continues c = false) →
      text.takeWhile continues = [] ∧ text.dropWhile continues = text := by
    intro text htext
    cases text with
    | nil => exact ⟨rfl, rfl⟩
    | cons c rest => simp [htext c rest rfl]
  have hspace : ∀ c, isWhitespace c = true → continues c = false := by
    intro c hc
    apply Bool.eq_false_iff.2
    intro hcontinues
    rw [(hplain c hcontinues).1] at hc
    cases hc
  have hblank : ∀ text : List Char, (∀ c rest, text = c :: rest → isWhitespace c = true) →
      (outside text).takeWhile continues = [] ∧
        (outside text).dropWhile continues = outside text := by
    intro text htext
    apply hstop
    intro c rest heq
    exact hspace c (h.isWhitespace_head htext c rest heq)
  induction text with
  | nil => exact hblank [] (by simp)
  | cons c rest ih =>
      cases hc : isWhitespace c with
      | true =>
          have hstopped := hblank (c :: rest) (by simp [hc])
          simpa [hspace c hc] using hstopped
      | false =>
          rw [h.outside_cons hc]
          cases hcontinues : continues c with
          | true => simp [hcontinues, (hplain c hcontinues).2, ih]
          | false => simp [hcontinues, h.outside_cons hc]

/-- Behind the change a text begins with a plain character where it began with that character. -/
theorem outside_eq_cons_iff (h : Carries outside inside gapOf) {c : Char} (hc : IsPlain c)
    {text later : List Char} :
    outside text = c :: later ↔ ∃ rest, text = c :: rest ∧ outside rest = later := by
  have hcons : ∀ rest, outside (c :: rest) = c :: outside rest := by
    intro rest
    rw [h.outside_cons hc.1, if_neg (by simp [hc.2])]
  constructor
  · intro heq
    cases text with
    | nil =>
        have hnone : ∀ d rest, [] = d :: rest → isWhitespace d = true := by simp
        have hspace := h.isWhitespace_head hnone c later heq
        rw [hc.1] at hspace
        cases hspace
    | cons d rest =>
        cases hd : isWhitespace d with
        | true =>
            have hspace := h.isWhitespace_head (by simp [hd]) c later heq
            rw [hc.1] at hspace
            cases hspace
        | false =>
            have hdrop := heq
            rw [h.outside_cons hd] at hdrop
            obtain ⟨rfl, -⟩ := List.cons.inj hdrop
            rw [hcons, List.cons.injEq] at heq
            exact ⟨rest, rfl, heq.2⟩
  · rintro ⟨rest, rfl, rfl⟩
    exact hcons rest

/-- The lexeme at the start of a text is the same behind the change. -/
theorem lexeme_eq (h : Carries outside inside gapOf) {c : Char} (hc : isWhitespace c = false)
    (rest : List Char) :
    lexeme c (if isQuote c then inside c rest else outside rest) =
      (lexeme c rest).map fun read => { read with rest := outside read.rest } := by
  unfold lexeme
  split
  · rename_i hident
    have hquote := (isPlain_of_isIdentRest (Source.isIdentRest_of_isIdentStart hident)).2
    obtain ⟨htake, hdrop⟩ := h.takeWhile_dropWhile (fun _ => isPlain_of_isIdentRest) rest
    simp [hquote, spanned, htake, hdrop, Except.map]
  · split
    · rename_i hdigit
      have hquote := (isPlain_of_isNumberRest (c := c) (by simp [isNumberRest, hdigit])).2
      obtain ⟨htake, hdrop⟩ := h.takeWhile_dropWhile (fun _ => isPlain_of_isNumberRest) rest
      simp [hquote, spanned, htake, hdrop, Except.map]
    · split
      · rename_i hquote
        rw [← isQuote_iff] at hquote
        rw [if_pos hquote, h.literal c rest hquote]
        cases quoted c rest <;> rfl
      · rename_i hquote
        rw [← isQuote_iff] at hquote
        rw [if_neg hquote]
        have harrow : IsPlain '>' := isPlain_of_isPunctuation (by decide)
        split
        · rename_i _ _ later heq _ _
          obtain ⟨behind, rfl, rfl⟩ := (h.outside_eq_cons_iff harrow).1 heq
          rfl
        · rename_i hnone
          split
          · rename_i hpunct
            split
            · exact absurd ((h.outside_eq_cons_iff harrow).2 ⟨_, rfl, rfl⟩) (hnone _ rfl)
            · rfl
          · split
            · exact absurd ((h.outside_eq_cons_iff harrow).2 ⟨_, rfl, rfl⟩) (hnone _ rfl)
            · rfl

end Carries

/-- The tokens of a text behind white space: the lexeme there, and the tokens of what follows. -/
theorem toOption_tokensFrom {gap : List Char} {c : Char} (hgap : IsBlank gap)
    (hc : isWhitespace c = false) (start : Nat) (rest : List Char) :
    (tokensFrom start (gap ++ c :: rest)).toOption =
      (lexeme c rest).toOption.bind fun read =>
        (tokensFrom (start + byteLength gap + byteLength read.text) read.rest).toOption.map
          fun tokens => ⟨read.kind, start + byteLength gap, gap, read.text⟩ :: tokens := by
  rw [tokensFrom_of_solid hgap hc]
  rcases lexeme c rest with fault | read
  · cases fault <;> rfl
  · rw [toOption_ok, Option.bind_some]
    dsimp only
    cases tokensFrom (start + byteLength gap + byteLength read.text) read.rest <;> rfl

/-- The reader cuts out the same tokens behind the change, with other white space between them. -/
theorem Carries.tokens_eq {outside : List Char → List Char}
    {inside : Char → List Char → List Char} {gapOf : List Char → List Char}
    (h : Carries outside inside gapOf) (start start' : Nat) (text : List Char) :
    (tokensFrom start' (outside text)).toOption.map (List.map Token.unplaced) =
      (tokensFrom start text).toOption.map (List.map (Token.regap gapOf)) := by
  induction hlength : text.length using Nat.strongRecOn generalizing text start start' with
  | ind length ih =>
      subst hlength
      rcases isBlank_or_exists_solid text with hblank | ⟨gap, c, rest, rfl, hgap, hc⟩
      · rw [tokensFrom_of_isBlank hblank, tokensFrom_of_isBlank (h.blank text hblank)]
        rfl
      · rw [h.solid gap c rest hgap hc, toOption_tokensFrom hgap hc,
          toOption_tokensFrom (h.gap gap hgap).1 hc, h.lexeme_eq hc]
        cases hread : lexeme c rest with
        | error fault => rfl
        | ok read =>
            have hlt : read.rest.length < (gap ++ c :: rest).length := by
              have hlt := length_rest_lt_of_lexeme hread
              simp only [List.length_append, List.length_cons]
              omega
            have hlater := ih read.rest.length hlt
              (start + byteLength gap + byteLength read.text)
              (start' + byteLength (gapOf gap) + byteLength read.text) read.rest rfl
            have hcons := congrArg (Option.map
              fun tokens => ⟨read.kind, 0, gapOf gap, read.text⟩ :: tokens) hlater
            simp only [Option.map_map] at hcons
            simp only [Except.map, toOption_ok, Option.bind_some, Option.map_map]
            exact hcons

/-! ### Ends of literals -/

theorem quoted_quote {quote : Char} (h : quote ≠ '\\') (rest : List Char) :
    quoted quote (quote :: rest) = some ([], [quote], rest) := by
  rw [quoted.eq_def]
  split <;> simp_all

theorem quoted_plain {quote c : Char} (hslash : c ≠ '\\') (hquote : c ≠ quote)
    (rest : List Char) :
    quoted quote (c :: rest) =
      (quoted quote rest).map fun (value, text, later) => (c :: value, c :: text, later) := by
  rw [quoted.eq_def]
  split <;> simp_all

theorem quoted_escape_cons (quote c : Char) (rest : List Char) :
    quoted quote ('\\' :: c :: rest) =
      (quoted quote rest).map fun (value, text, later) =>
        (unescaped c :: value, '\\' :: c :: text, later) := by
  rw [quoted]

/-- A literal is over, a backslash keeps one character in it, or it goes on with a character. -/
theorem quoted_induction (quote : Char) {motive : List Char → Prop}
    (nil : motive []) (lone : motive ['\\'])
    (escape : ∀ c rest, motive rest → motive ('\\' :: c :: rest))
    (close : ∀ rest, motive (quote :: rest))
    (plain : ∀ c rest, c ≠ '\\' → c ≠ quote → motive rest → motive (c :: rest))
    (text : List Char) : motive text := by
  induction text using List.twoStepInduction with
  | nil => exact nil
  | singleton c =>
      by_cases hslash : c = '\\'
      · exact hslash ▸ lone
      · by_cases hclose : c = quote
        · exact hclose ▸ close []
        · exact plain c [] hslash hclose nil
  | cons_cons c d rest behind next =>
      by_cases hslash : c = '\\'
      · exact hslash ▸ escape d rest behind
      · by_cases hclose : c = quote
        · exact hclose ▸ close (d :: rest)
        · exact plain c (d :: rest) hslash hclose (next d)

/-- White space behind a text does not close a literal. -/
theorem quoted_append_blank {quote : Char} (hquote : isQuote quote = true) {blank : List Char}
    (hblank : IsBlank blank) (text : List Char) :
    quoted quote (text ++ blank) =
      (quoted quote text).map fun (value, text, later) => (value, text, later ++ blank) := by
  have hslash := Text.ne_backslash_of_isQuote hquote
  have hnone : ∀ blank : List Char, IsBlank blank → quoted quote blank = none := by
    intro blank hblank
    induction blank with
    | nil => rfl
    | cons c rest ih =>
        have hc := hblank c (by simp)
        have hplain : c ≠ '\\' ∧ c ≠ quote := by
          constructor
          · rintro rfl
            exact absurd hc (by decide)
          · rintro rfl
            rw [isWhitespace_of_isQuote hquote] at hc
            cases hc
        rw [quoted_plain hplain.1 hplain.2, ih fun d hd => hblank d (List.mem_cons_of_mem c hd)]
        rfl
  induction text using quoted_induction quote with
  | nil => rw [List.nil_append, hnone blank hblank]; rfl
  | lone =>
      cases blank with
      | nil => rfl
      | cons c rest =>
          have hrest := hnone rest fun d hd => hblank d (List.mem_cons_of_mem c hd)
          rw [List.singleton_append, quoted_escape_cons, hrest]
          rfl
  | escape c rest ih =>
      rw [List.cons_append, List.cons_append, quoted_escape_cons, quoted_escape_cons, ih]
      cases quoted quote rest <;> rfl
  | close rest => rw [List.cons_append, quoted_quote hslash, quoted_quote hslash]; rfl
  | plain c rest hne hother ih =>
      rw [List.cons_append, quoted_plain hne hother, quoted_plain hne hother, ih]
      cases quoted quote rest <;> rfl

/-- A literal ends where it ended before it was squashed. -/
theorem quoted_squashInside {quote : Char} (hquote : isQuote quote = true) (text : List Char) :
    quoted quote (squashInside quote text) =
      (quoted quote text).map fun (value, text, later) =>
        (value, text, squashOutside false later) := by
  have hslash := Text.ne_backslash_of_isQuote hquote
  induction text using quoted_induction quote with
  | nil => rw [Text.squashInside_nil]; rfl
  | lone => rw [Text.squashInside_singleton]; rfl
  | escape c rest ih =>
      rw [Text.squashInside_escape, quoted_escape_cons, quoted_escape_cons, ih]
      cases quoted quote rest <;> rfl
  | close rest =>
      rw [Text.squashInside_quote hslash, quoted_quote hslash, quoted_quote hslash]
      rfl
  | plain c rest hne hother ih =>
      rw [Text.squashInside_plain hne hother, quoted_plain hne hother, quoted_plain hne hother, ih]
      cases quoted quote rest <;> rfl

/-- The text of a literal ends with its closing quote. -/
theorem exists_eq_append_quote {quote : Char} {source value text later : List Char}
    (h : quoted quote source = some (value, text, later)) : ∃ front, text = front ++ [quote] := by
  fun_induction quoted quote source generalizing value text later with
  | case1 => cases h
  | case2 => cases h
  | case3 c rest ih =>
      obtain ⟨⟨v, t, l⟩, hq, he⟩ := Option.map_eq_some_iff.1 h
      simp only [Prod.mk.injEq] at he
      obtain ⟨-, rfl, -⟩ := he
      obtain ⟨front, rfl⟩ := ih hq
      exact ⟨'\\' :: c :: front, rfl⟩
  | case4 =>
      simp only [Option.some.injEq, Prod.mk.injEq] at h
      obtain ⟨-, rfl, -⟩ := h
      exact ⟨[], rfl⟩
  | case5 c rest _ _ _ ih =>
      obtain ⟨⟨v, t, l⟩, hq, he⟩ := Option.map_eq_some_iff.1 h
      simp only [Prod.mk.injEq] at he
      obtain ⟨-, rfl, -⟩ := he
      obtain ⟨front, rfl⟩ := ih hq
      exact ⟨c :: front, rfl⟩

/-! ### The two changes -/

theorem carries_append_blank {behind : List Char} (hbehind : IsBlank behind) :
    Carries (· ++ behind) (fun _ rest => rest ++ behind) id where
  solid gap c rest _ _ := by simp
  blank text htext := htext.append hbehind
  gap gap hgap := ⟨hgap, Iff.rfl⟩
  literal quote rest hquote := quoted_append_blank hquote hbehind rest

theorem carries_squash : Carries (squashOutside false) squashInside squeezed where
  solid gap c rest hgap hc := Text.squashOutside_append_of_solid hgap hc rest
  blank text htext := by
    rw [Text.squashOutside_of_blank htext]
    exact isBlank_nil
  gap gap _ := by
    cases gap with
    | nil => exact ⟨isBlank_nil, Iff.rfl⟩
    | cons c rest => exact ⟨isBlank_space, by simp [squeezed]⟩
  literal quote rest hquote := quoted_squashInside hquote rest

end TableModels.Column
