import TableModels.Script.Document
import Mathlib.Data.List.TakeWhile

/-!
# Lexemes before a line feed

A line feed ends a lexeme, and nothing behind the line feed has a say in the lexeme. Only the
fragments of templates and the escape sequences pass line feeds, and behind these a literal is still
open. So whatever is put behind a text, with a line feed before it, leaves the lexemes of the text
as they are, unless the text ends inside a literal.

## Implementation notes

Each number of characters that goes into a lexeme is shown to stay inside the text, since the text
of the lexeme and the text behind it are taken by this number.
-/

namespace TableModels.Script

/-! ### Numbers of characters -/

/-- A number of characters at the head of a text is no greater than their number in the text, and
nothing that begins with a line feed changes it. -/
structure StaysInside (size : List Char → Nat) (text : List Char) : Prop where
  le : size text ≤ text.length
  append : ∀ tail, size (text ++ '\n' :: tail) = size text

theorem any_head?_append {p : Char → Bool} (h : p '\n' = false) (text tail : List Char) :
    (text ++ '\n' :: tail).head?.any p = text.head?.any p := by
  cases text with
  | nil => simp [h]
  | cons c rest => rfl

theorem head?_append_beq {c : Char} (h : ('\n' == c) = false) (text tail : List Char) :
    ((text ++ '\n' :: tail).head? == some c) = (text.head? == some c) := by
  cases text with
  | nil => simpa using h
  | cons d rest => rfl

theorem lt_length_of_head?_drop {count : Nat} {text : List Char} {c : Char}
    (h : ((text.drop count).head? == some c) = true) : count < text.length := by
  by_contra hge
  rw [List.drop_of_length_le (Nat.le_of_not_lt hge)] at h
  cases h

theorem drop_append_of_le {count : Nat} {text : List Char} (h : count ≤ text.length)
    (tail : List Char) : (text ++ tail).drop count = text.drop count ++ tail :=
  List.drop_append_of_le_length h

theorem take_cons_append {count : Nat} {first : Char} {rest : List Char}
    (h : count ≤ rest.length) (tail : List Char) :
    (first :: (rest ++ tail)).take (count + 1) = (first :: rest).take (count + 1) := by
  rw [List.take_succ_cons, List.take_succ_cons, List.take_append_of_le_length h]

theorem countWhile_le (accepts : Char → Bool) (text : List Char) :
    countWhile accepts text ≤ text.length :=
  (List.takeWhile_prefix accepts).length_le

theorem takeWhile_append_newline {p : Char → Bool} (h : p '\n' = false) (text tail : List Char) :
    (text ++ '\n' :: tail).takeWhile p = text.takeWhile p := by
  induction text with
  | nil => simp [h]
  | cons c rest ih => rw [List.cons_append, List.takeWhile_cons, List.takeWhile_cons, ih]

theorem countWhile_append {p : Char → Bool} (h : p '\n' = false) (text tail : List Char) :
    countWhile p (text ++ '\n' :: tail) = countWhile p text :=
  congrArg List.length (takeWhile_append_newline h text tail)

theorem staysInside_countWhile {p : Char → Bool} (h : p '\n' = false) (text : List Char) :
    StaysInside (countWhile p) text :=
  ⟨countWhile_le p text, countWhile_append h text⟩

/-! ### Numbers -/

theorem staysInside_fractionSize (text : List Char) : StaysInside fractionSize text := by
  have hdigits := staysInside_countWhile (p := isGroupedDigit) rfl
  constructor
  · unfold fractionSize
    split
    · rename_i rest
      exact Nat.succ_le_succ (hdigits rest).le
    · exact Nat.zero_le _
  · intro tail
    cases text with
    | nil => rfl
    | cons c rest =>
        by_cases hpoint : c = '.'
        · subst hpoint
          exact congrArg (· + 1) ((hdigits rest).append tail)
        · simp [fractionSize, hpoint]

theorem staysInside_exponentSize (text : List Char) : StaysInside exponentSize text := by
  have hdigits := staysInside_countWhile (p := Char.isDigit) rfl
  rcases text with _ | ⟨c, _ | ⟨sign, later⟩⟩
  · exact ⟨Nat.zero_le _, fun tail => rfl⟩
  · refine ⟨?_, fun tail => ?_⟩
    · simp [exponentSize]
    · simp [exponentSize]
  · refine ⟨?_, fun tail => ?_⟩
    · have hall := (hdigits (sign :: later)).le
      have hlater := (hdigits later).le
      simp only [List.length_cons] at hall hlater ⊢
      unfold exponentSize
      dsimp only
      split_ifs <;> omega
    · have hall := (hdigits (sign :: later)).append tail
      have hlater := (hdigits later).append tail
      have hhead := any_head?_append (p := Char.isDigit) rfl later tail
      rw [List.cons_append] at hall
      simp only [List.cons_append, exponentSize, hall, hlater, hhead]

/-- The number of digits of a number in front of its point. -/
def wholeSize (first : Char) (text : List Char) : Nat :=
  if first == '.' then 0 else countWhile isGroupedDigit text

/-- The number of characters of a number behind the digits in front of its point. -/
def decimalsSize (first : Char) (text : List Char) : Nat :=
  if first == '.' then countWhile isGroupedDigit text else fractionSize text

/-- The number of characters of a number in front of its exponent. -/
def mantissaSize (first : Char) (text : List Char) : Nat :=
  wholeSize first text + decimalsSize first (text.drop (wholeSize first text))

/-- The number of characters of a number in front of its suffix. -/
def plainSize (first : Char) (text : List Char) : Nat :=
  mantissaSize first text + exponentSize (text.drop (mantissaSize first text))

/-- The number is a whole number with the suffix of large integers. -/
def hasSuffix (first : Char) (text : List Char) : Bool :=
  decimalsSize first (text.drop (wholeSize first text)) = 0 &&
    exponentSize (text.drop (mantissaSize first text)) = 0 &&
    (text.drop (plainSize first text)).head? == some 'n'

theorem numberExtra_eq (first : Char) (text : List Char) :
    numberExtra first text =
      if first == '0' && text.head?.any "xXoObB".toList.contains then
        countWhile (fun c => c.isAlphanum || c == '_') text
      else if hasSuffix first text then plainSize first text + 1 else plainSize first text := by
  by_cases hpoint : (first == '.') = true
  · simp only [numberExtra, hasSuffix, plainSize, mantissaSize, decimalsSize, wholeSize, hpoint]
    rfl
  · simp only [numberExtra, hasSuffix, plainSize, mantissaSize, decimalsSize, wholeSize, hpoint]
    rfl

theorem StaysInside.andThen {first second : List Char → Nat} {text : List Char}
    (hfirst : StaysInside first text)
    (hsecond : StaysInside second (text.drop (first text))) :
    StaysInside (fun text => first text + second (text.drop (first text))) text := by
  have hle : first text ≤ text.length := hfirst.le
  constructor
  · have hrest : second (text.drop (first text)) ≤ (text.drop (first text)).length := hsecond.le
    rw [List.length_drop] at hrest
    omega
  · intro tail
    rw [hfirst.append, drop_append_of_le hle, hsecond.append]

theorem staysInside_wholeSize (first : Char) (text : List Char) :
    StaysInside (wholeSize first) text := by
  unfold wholeSize
  split_ifs
  · exact ⟨Nat.zero_le _, fun _ => rfl⟩
  · exact staysInside_countWhile rfl text

theorem staysInside_decimalsSize (first : Char) (text : List Char) :
    StaysInside (decimalsSize first) text := by
  unfold decimalsSize
  split_ifs
  · exact staysInside_countWhile rfl text
  · exact staysInside_fractionSize text

theorem staysInside_mantissaSize (first : Char) (text : List Char) :
    StaysInside (mantissaSize first) text :=
  (staysInside_wholeSize first text).andThen (staysInside_decimalsSize first _)

theorem staysInside_plainSize (first : Char) (text : List Char) :
    StaysInside (plainSize first) text :=
  (staysInside_mantissaSize first text).andThen (staysInside_exponentSize _)

theorem hasSuffix_append (first : Char) (text tail : List Char) :
    hasSuffix first (text ++ '\n' :: tail) = hasSuffix first text := by
  have hwhole := staysInside_wholeSize first text
  have hmantissa := staysInside_mantissaSize first text
  have hplain := staysInside_plainSize first text
  rw [hasSuffix, hasSuffix, hwhole.append, hmantissa.append, hplain.append,
    drop_append_of_le hwhole.le, drop_append_of_le hmantissa.le, drop_append_of_le hplain.le,
    (staysInside_decimalsSize first _).append, (staysInside_exponentSize _).append,
    head?_append_beq (by decide)]

theorem staysInside_numberExtra (first : Char) (text : List Char) :
    StaysInside (numberExtra first) text := by
  have hplain := staysInside_plainSize first text
  have hprefixed := staysInside_countWhile (p := fun c => c.isAlphanum || c == '_') rfl text
  constructor
  · rw [numberExtra_eq]
    split_ifs with _ hsuffix
    · exact hprefixed.le
    · -- the suffix is a character behind all the others
      exact lt_length_of_head?_drop (Bool.and_eq_true_iff.mp hsuffix).2
    · exact hplain.le
  · intro tail
    rw [numberExtra_eq, numberExtra_eq, hprefixed.append, hplain.append, hasSuffix_append,
      any_head?_append (by decide)]

/-! ### Marks and regular expressions -/

theorem isPrefixOf_append {mark : List Char} (h : '\n' ∉ mark) (text tail : List Char) :
    mark.isPrefixOf (text ++ '\n' :: tail) = mark.isPrefixOf text := by
  induction mark generalizing text with
  | nil => simp
  | cons c later ih =>
      rw [List.mem_cons, not_or] at h
      cases text with
      | nil => simp [List.isPrefixOf, Ne.symm h.1]
      | cons d rest => simp [List.isPrefixOf, ih h.2]

theorem find?_mark_append {marks : List String} (h : ∀ mark ∈ marks, '\n' ∉ mark.toList)
    (text tail : List Char) :
    (marks.find? fun mark => mark.toList.isPrefixOf (text ++ '\n' :: tail)) =
      marks.find? fun mark => mark.toList.isPrefixOf text := by
  induction marks with
  | nil => rfl
  | cons mark rest ih =>
      rw [List.forall_mem_cons] at h
      rw [List.find?_cons, List.find?_cons, isPrefixOf_append h.1, ih h.2]

theorem length_le_of_find?_mark {marks : List String} {text : List Char} {mark : String}
    (h : (marks.find? fun mark => mark.toList.isPrefixOf text) = some mark) :
    mark.length ≤ text.length := by
  have hprefix := List.find?_eq_some_iff_append.mp h |>.1
  exact (List.isPrefixOf_iff_prefix.mp hprefix).length_le

theorem staysInside_markExtra (first : Char) (rest : List Char) :
    StaysInside (fun rest => markExtra (first :: rest)) rest := by
  constructor
  · unfold markExtra
    cases hmark : longMarks.find? fun mark => mark.toList.isPrefixOf (first :: rest) with
    | none => exact Nat.zero_le _
    | some mark =>
        have hlength := length_le_of_find?_mark hmark
        rw [List.length_cons] at hlength
        dsimp only
        split_ifs <;> omega
  · intro tail
    unfold markExtra
    rw [← List.cons_append, find?_mark_append (by decide) (first :: rest)]
    cases hmark : longMarks.find? fun mark => mark.toList.isPrefixOf (first :: rest) with
    | none => rfl
    | some mark =>
        dsimp only
        by_cases hchain : mark = "?."
        · -- a question mark and a point are one mark unless a digit follows
          have hlength := length_le_of_find?_mark hmark
          rw [hchain] at hlength
          cases rest with
          | nil =>
              have hshort : "?.".length ≤ 1 := hlength
              exact absurd hshort (by decide)
          | cons second later =>
              have hhead := any_head?_append (p := Char.isDigit) rfl later tail
              simp only [List.cons_append, List.drop_succ_cons, List.drop_zero, hhead]
        · simp only [hchain, decide_false, Bool.false_and]

theorem patternSize?_newline (inClass : Bool) (tail : List Char) :
    patternSize? inClass ('\n' :: tail) = none := by
  cases tail <;> simp [patternSize?, isLineEnd]

theorem patternSize?_append (inClass : Bool) (text tail : List Char) :
    patternSize? inClass (text ++ '\n' :: tail) = patternSize? inClass text := by
  fun_induction patternSize? inClass text with
  | case1 inClass => exact patternSize?_newline inClass tail
  | case2 inClass c hcloses =>
      have hslash : c = '/' := beq_iff_eq.mp (Bool.and_eq_true_iff.mp hcloses).1
      rw [List.cons_append, List.nil_append, patternSize?, hcloses, hslash]
      rfl
  | case3 inClass c hopen =>
      -- a regular expression does not go on behind the end of a line
      have hfeed : isLineEnd '\n' = true := rfl
      rw [List.cons_append, List.nil_append, patternSize?, if_neg hopen, patternSize?_newline,
        if_pos hfeed, Option.map_none, ite_self, ite_self]
  | case4 inClass c d rest hline =>
      rw [List.cons_append, List.cons_append, patternSize?, if_pos hline]
  | case5 inClass c d rest hline hescape hfeed =>
      rw [List.cons_append, List.cons_append, patternSize?, if_neg hline, if_pos hescape,
        if_pos hfeed]
  | case6 inClass c d rest hline hescape hfeed ih =>
      rw [List.cons_append, List.cons_append, patternSize?, if_neg hline, if_pos hescape,
        if_neg hfeed, ih]
  | case7 inClass c d rest hline hescape hcloses =>
      rw [List.cons_append, List.cons_append, patternSize?, if_neg hline, if_neg hescape,
        if_pos hcloses]
  | case8 inClass c d rest hline hescape hopen ih =>
      rw [List.cons_append, List.cons_append, patternSize?, if_neg hline, if_neg hescape,
        if_neg hopen, ← List.cons_append, ih]

theorem le_of_patternSize? {inClass : Bool} {text : List Char} {size : Nat}
    (h : patternSize? inClass text = some size) : size ≤ text.length := by
  fun_induction patternSize? inClass text generalizing size with
  | case1 | case3 | case4 | case5 => cases h
  | case2 => cases h; exact Nat.le_refl 1
  | case6 inClass c d rest _ _ _ ih =>
      obtain ⟨inner, hinner, rfl⟩ := Option.map_eq_some_iff.mp h
      exact Nat.add_le_add_right (ih hinner) 2
  | case7 inClass c d rest =>
      cases h
      exact Nat.succ_le_succ (Nat.zero_le _)
  | case8 inClass c d rest _ _ _ ih =>
      obtain ⟨inner, hinner, rfl⟩ := Option.map_eq_some_iff.mp h
      exact Nat.add_le_add_right (ih hinner) 1

theorem le_of_patternExtra? {text : List Char} {extra : Nat} (h : patternExtra? text = some extra) :
    extra ≤ text.length := by
  obtain ⟨size, hsize, rfl⟩ := Option.map_eq_some_iff.mp h
  have hle := le_of_patternSize? hsize
  have hflags := countWhile_le Char.isLower (text.drop size)
  rw [List.length_drop] at hflags
  omega

theorem patternExtra?_append (text tail : List Char) :
    patternExtra? (text ++ '\n' :: tail) = patternExtra? text := by
  rw [patternExtra?, patternExtra?, patternSize?_append]
  apply Option.map_congr
  intro size hsize
  rw [drop_append_of_le (le_of_patternSize? hsize), countWhile_append rfl]

/-! ### Literals -/

theorem le_of_escapeExtra? {text : List Char} {extra : Nat} (h : escapeExtra? text = some extra) :
    extra ≤ text.length := by
  unfold escapeExtra? at h
  split at h
  · cases h
  · split_ifs at h
    cases h
    simp
  · cases h
  · cases h
  · rename_i rest
    dsimp only at h
    split_ifs at h with hclosed
    cases h
    have hlt := lt_length_of_head?_drop (Bool.and_eq_true_iff.mp hclosed).2
    simp only [List.length_cons]
    omega
  · rename_i rest _
    split_ifs at h with hfour
    cases h
    have hlength := of_decide_eq_true (Bool.and_eq_true_iff.mp hfour).1
    exact Nat.succ_le_succ hlength
  · cases h
    simp
  · rename_i c rest _ _ _ _ _ _
    have hdigits := countWhile_le isOctalDigit rest
    split_ifs at h <;> cases h
    · simp only [List.length_cons]
      omega
    · simp

theorem escapeExtra?_codePoint {rest : List Char} (h : rest.head? ≠ some '\x7b') :
    escapeExtra? ('u' :: rest) =
      if 4 ≤ rest.length && (rest.take 4).all isHexDigit then some 5 else none := by
  rw [escapeExtra?]
  rintro later rfl
  exact h rfl

theorem escapeExtra?_plain {c : Char} {rest : List Char} (hx : c ≠ 'x') (hu : c ≠ 'u')
    (hfeed : c = '\r' → rest.head? ≠ some '\n') :
    escapeExtra? (c :: rest) =
      if isOctalDigit c then some (1 + min 2 (countWhile isOctalDigit rest)) else some 1 := by
  rw [escapeExtra?]
  · exact fun _ _ _ h => absurd h hx
  · exact fun h => absurd h hx
  · exact fun _ h => absurd h hx
  · exact fun _ h => absurd h hu
  · exact fun h => absurd h hu
  · rintro later h rfl
    exact hfeed h rfl

/-- An escape sequence ends where it did, unless the text ends in its backslash or in a carriage
return behind it. -/
theorem escapeExtra?_append {text : List Char} (hne : text ≠ []) (hreturn : text ≠ ['\r'])
    (tail : List Char) : escapeExtra? (text ++ '\n' :: tail) = escapeExtra? text := by
  have hhex : isHexDigit '\n' = false := rfl
  rw [escapeExtra?.eq_def text]
  split
  · exact absurd rfl hne
  · rfl
  · cases tail <;> simp [escapeExtra?, hhex]
  · simp [escapeExtra?, hhex]
  · rename_i rest
    have hdigits := staysInside_countWhile hhex rest
    simp only [List.cons_append, escapeExtra?]
    rw [hdigits.append, drop_append_of_le hdigits.le, head?_append_beq (by decide)]
  · rename_i rest hbrace
    have hhead : (rest ++ '\n' :: tail).head? ≠ some '\x7b' := by
      cases rest with
      | nil => exact fun hsame => absurd (Option.some.inj hsame) (by decide)
      | cons d later =>
          intro hsame
          cases hsame
          exact hbrace later rfl
    rw [List.cons_append, escapeExtra?_codePoint hhead]
    by_cases hfour : 4 ≤ rest.length
    · rw [List.take_append_of_le_length hfour]
      simp [hfour, Nat.le_add_right_of_le hfour]
    · -- the line feed is among the next four characters
      obtain ⟨count, hcount⟩ := Nat.exists_eq_succ_of_ne_zero (Nat.sub_ne_zero_of_lt
        (Nat.lt_of_not_le hfour))
      have hfeed : '\n' ∈ (rest ++ '\n' :: tail).take 4 := by
        rw [List.take_append, hcount, List.take_succ_cons]
        exact List.mem_append_right _ List.mem_cons_self
      have hall : ((rest ++ '\n' :: tail).take 4).all isHexDigit = false := by
        rw [List.all_eq_false]
        exact ⟨'\n', hfeed, by decide⟩
      simp [hall, hfour]
  · rfl
  · rename_i c rest hpair hsingle hhalf hbrace hcode hfeed
    have hx : c ≠ 'x' := by
      rintro rfl
      rcases rest with _ | ⟨a, _ | ⟨b, later⟩⟩
      · exact hsingle rfl rfl
      · exact hhalf a rfl rfl
      · exact hpair a b later rfl rfl
    have hline : c = '\r' → (rest ++ '\n' :: tail).head? ≠ some '\n' := by
      rintro rfl hhead
      cases rest with
      | nil => exact hreturn rfl
      | cons d later =>
          cases hhead
          exact hfeed later rfl rfl
    rw [List.cons_append, escapeExtra?_plain hx hcode hline, countWhile_append rfl]

theorem chunkSize_le (text : List Char) : chunkSize text ≤ text.length := by
  fun_induction chunkSize text with
  | case1 => exact Nat.le_refl 0
  | case2 | case4 => exact Nat.zero_le _
  | case3 => exact Nat.le_refl 1
  | case5 c d rest _ ih => exact Nat.succ_le_succ ih

/-- A fragment of a template that ends inside the text ends where it did. -/
theorem chunkSize_append {text : List Char} (h : text.drop (chunkSize text) ≠ [])
    (tail : List Char) : chunkSize (text ++ '\n' :: tail) = chunkSize text := by
  fun_induction chunkSize text with
  | case1 => exact absurd rfl h
  | case2 c hstop =>
      rw [List.cons_append, List.nil_append, chunkSize, hstop]
      rfl
  | case3 => exact absurd rfl h
  | case4 c d rest hstop =>
      rw [List.cons_append, List.cons_append, chunkSize, if_pos hstop]
  | case5 c d rest hstop ih =>
      rw [List.cons_append, List.cons_append, chunkSize, if_neg hstop, ← List.cons_append, ih h]

/-! ### Lexemes -/

/-- A lexeme stays inside the text behind its first character, and nothing that begins with a line
feed changes it. -/
structure ReadsInside (read : List Char → Lexeme) (rest : List Char) : Prop where
  le : (read rest).extra ≤ rest.length
  append : ∀ tail, read (rest ++ '\n' :: tail) = read rest

theorem readsInside_escapeLexeme {contexts : List Context} {rest : List Char}
    (h : rest.drop (escapeLexeme contexts rest).extra ≠ []) :
    ReadsInside (escapeLexeme contexts) rest := by
  constructor
  · unfold escapeLexeme
    cases hextra : escapeExtra? rest with
    | none => exact Nat.zero_le _
    | some extra => exact le_of_escapeExtra? hextra
  · have hne : rest ≠ [] := by
      rintro rfl
      exact h List.drop_nil
    have hreturn : rest ≠ ['\r'] := by
      rintro rfl
      exact h rfl
    intro tail
    rw [escapeLexeme, escapeLexeme, escapeExtra?_append hne hreturn]

theorem contexts_escapeLexeme (contexts : List Context) (rest : List Char) :
    (escapeLexeme contexts rest).contexts = contexts := by
  unfold escapeLexeme
  split <;> rfl

/-- When a lexeme ends the text, no literal is open behind it. -/
def EndsClosed (read : List Char → Lexeme) (rest : List Char) : Prop :=
  rest.drop (read rest).extra = [] → insideLiteral (read rest).contexts = false

theorem readsInside_of_const (lexeme : Lexeme) (h : lexeme.extra = 0) (rest : List Char) :
    ReadsInside (fun _ => lexeme) rest :=
  ⟨h ▸ Nat.zero_le _, fun _ => rfl⟩

theorem readsInside_escapeLexeme_of_endsClosed {contexts : List Context} {rest : List Char}
    (hinside : insideLiteral contexts = true) (h : EndsClosed (escapeLexeme contexts) rest) :
    ReadsInside (escapeLexeme contexts) rest := by
  apply readsInside_escapeLexeme
  intro hends
  have hclosed := h hends
  rw [contexts_escapeLexeme, hinside] at hclosed
  cases hclosed

theorem readsInside_stringLexeme {quote first : Char} {outer : List Context} {rest : List Char}
    (h : EndsClosed (stringLexeme quote outer first) rest) :
    ReadsInside (stringLexeme quote outer first) rest := by
  unfold stringLexeme at h ⊢
  dsimp only at h ⊢
  split_ifs at h ⊢
  · exact readsInside_of_const _ rfl rest
  · exact readsInside_escapeLexeme_of_endsClosed rfl h
  · exact readsInside_of_const _ rfl rest
  · constructor
    · exact countWhile_le _ rest
    · intro tail
      rw [countWhile_append (by simp)]

theorem readsInside_templateLexeme {first : Char} {outer : List Context} {rest : List Char}
    (h : EndsClosed (templateLexeme outer first) rest) :
    ReadsInside (templateLexeme outer first) rest := by
  unfold templateLexeme at h ⊢
  dsimp only at h ⊢
  split_ifs at h ⊢
  · exact readsInside_of_const _ rfl rest
  · exact readsInside_escapeLexeme_of_endsClosed rfl h
  · have hsame : ∀ tail, (first == '$' && (rest ++ '\n' :: tail).head? == some '\x7b') =
        (first == '$' && rest.head? == some '\x7b') := by
      intro tail
      rw [head?_append_beq (by decide)]
    by_cases hopens : (first == '$' && rest.head? == some '\x7b') = true
    · constructor
      · rw [if_pos hopens]
        have hhead := beq_iff_eq.mp (Bool.and_eq_true_iff.mp hopens).2
        exact List.length_pos_of_mem (List.mem_of_head? hhead)
      · intro tail
        rw [hsame, if_pos hopens, if_pos hopens]
    · rw [EndsClosed, if_neg hopens] at h
      constructor
      · rw [if_neg hopens]
        exact chunkSize_le rest
      · intro tail
        have hchunk := chunkSize_append (fun hends => Bool.noConfusion (h hends)) tail
        rw [hsame, if_neg hopens, if_neg hopens, hchunk]

theorem readsInside_markLexeme (slashDivides : Bool) (contexts : List Context) (first : Char)
    (rest : List Char) : ReadsInside (markLexeme slashDivides contexts first) rest := by
  have hmark := staysInside_markExtra first rest
  constructor
  · unfold markLexeme
    split
    · exact Nat.zero_le _
    · exact Nat.zero_le _
    · exact Nat.zero_le _
    · split
      · rename_i extra hextra
        split_ifs
        · exact hmark.le
        · exact le_of_patternExtra? hextra
      · exact hmark.le
    · exact hmark.le
  · intro tail
    have hsame := hmark.append tail
    unfold markLexeme
    rw [patternExtra?_append, hsame]

theorem readsInside_codeLexeme (slashDivides : Bool) (contexts : List Context) (first : Char)
    (rest : List Char) : ReadsInside (codeLexeme slashDivides contexts first) rest := by
  have hword : isWordRest '\n' = false := by decide
  have hstart : isWordStart '\n' = false := by decide
  have hmark := readsInside_markLexeme slashDivides contexts first rest
  constructor
  · unfold codeLexeme
    split_ifs
    · exact countWhile_le isWordRest rest
    · exact countWhile_le isWordRest rest
    · exact (staysInside_numberExtra first rest).le
    · exact Nat.zero_le _
    · exact Nat.zero_le _
    · exact hmark.le
  · intro tail
    unfold codeLexeme
    rw [countWhile_append hword, any_head?_append hstart, any_head?_append (p := Char.isDigit) rfl,
      (staysInside_numberExtra first rest).append, hmark.append]

theorem readsInside_lexeme {contexts : List Context} {slashDivides : Bool} {first : Char}
    {rest : List Char} (h : EndsClosed (lexeme contexts slashDivides first) rest) :
    ReadsInside (lexeme contexts slashDivides first) rest := by
  unfold lexeme at h ⊢
  split at h
  · exact readsInside_stringLexeme h
  · exact readsInside_templateLexeme h
  · exact readsInside_codeLexeme slashDivides contexts first rest

end TableModels.Script
