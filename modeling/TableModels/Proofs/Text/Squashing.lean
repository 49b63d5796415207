import TableModels.Text.Squash

/-!
# What squashing keeps

Squashing looks at a text one character after the other and remembers two things: whether white
space has been passed, and inside which literal it is. Outside of literals each run of white space
is one blank afterwards, at the ends there is none, and so nothing is left to be done a second
time.

## Implementation notes

The two halves of the squasher call each other, and what is proved of one is proved of the other by
the same induction. The equations of a literal leave open whether more text follows, unlike those
of the definition.
-/

namespace TableModels.Text

open Unicode (isWhitespace)

/-- The string on one line. -/
def squashed (text : String) : String :=
  String.ofList (squash text.toList)

/-- The blank that a run of white space becomes. -/
def squeezed (gap : List Char) : List Char :=
  if gap = [] then [] else [' ']

/-- The squashed text behind a character that is no white space. -/
def squashBehind (c : Char) (rest : List Char) : List Char :=
  if isQuote c then squashInside c rest else squashOutside false rest

/-- The text neither begins nor ends with white space. -/
structure IsTrimmed (text : List Char) : Prop where
  first : ∀ c rest, text = c :: rest → isWhitespace c = false
  last : ∀ front c, text = front ++ [c] → isWhitespace c = false

@[simp] theorem squeezed_nil : squeezed [] = [] := rfl

@[simp] theorem isWhitespace_space : isWhitespace ' ' = true := by decide

@[simp] theorem toList_squashed (text : String) : (squashed text).toList = squash text.toList := by
  simp [squashed]

theorem ne_backslash_of_isQuote {c : Char} (h : isQuote c = true) : c ≠ '\\' := by
  rintro rfl
  exact absurd h (by decide)

/-! ### Trimming -/

/-- Trimming leaves off white space at both ends and nothing else. -/
theorem exists_eq_append_trim (text : List Char) :
    ∃ before behind, text = before ++ (trim text ++ behind) ∧
      (∀ c ∈ before, isWhitespace c = true) ∧ (∀ c ∈ behind, isWhitespace c = true) := by
  have hfirst := @List.takeWhile_append_dropWhile _ isWhitespace text
  have hlast := @List.takeWhile_append_dropWhile _ isWhitespace
    (text.dropWhile isWhitespace).reverse
  refine ⟨text.takeWhile isWhitespace,
    ((text.dropWhile isWhitespace).reverse.takeWhile isWhitespace).reverse, ?_, ?_, ?_⟩
  · rw [trim, trimBy, ← List.reverse_append, hlast, List.reverse_reverse, hfirst]
  · exact List.all_eq_true.1 List.all_takeWhile
  · intro c hc
    exact List.all_eq_true.1 List.all_takeWhile c (List.mem_reverse.1 hc)

theorem isTrimmed_trim (text : List Char) : IsTrimmed (trim text) := by
  constructor
  · intro c rest h
    -- the first character of what is left is the first that is not dropped
    obtain ⟨dropped, hdropped⟩ : trim text <+: text.dropWhile isWhitespace := by
      rw [trim, trimBy, ← List.reverse_suffix, List.reverse_reverse]
      exact List.dropWhile_suffix isWhitespace
    have hhead := List.head?_dropWhile_not isWhitespace text
    rw [← hdropped, h] at hhead
    simpa using hhead
  · intro front c h
    have hhead := List.head?_dropWhile_not isWhitespace (text.dropWhile isWhitespace).reverse
    rw [trim, trimBy, List.reverse_eq_iff, List.reverse_append] at h
    rw [h] at hhead
    simpa using hhead

theorem dropWhile_of_first {text : List Char}
    (h : ∀ c rest, text = c :: rest → isWhitespace c = false) :
    text.dropWhile isWhitespace = text := by
  cases text with
  | nil => rfl
  | cons c rest => simp [h c rest rfl]

theorem trim_of_blank {text : List Char} (h : ∀ c ∈ text, isWhitespace c = true) :
    trim text = [] := by
  have hdropped := @List.dropWhile_append_of_pos _ isWhitespace text [] h
  rw [List.append_nil] at hdropped
  rw [trim, trimBy, hdropped]
  rfl

/-- Trimming gives back a text without white space at its ends from between white space. -/
theorem trim_append {before text behind : List Char}
    (hbefore : ∀ c ∈ before, isWhitespace c = true)
    (hbehind : ∀ c ∈ behind, isWhitespace c = true) (h : IsTrimmed text) :
    trim (before ++ (text ++ behind)) = text := by
  cases text with
  | nil => exact trim_of_blank (List.forall_mem_append.2 ⟨hbefore, hbehind⟩)
  | cons d text =>
      have hfirst : (d :: text ++ behind).dropWhile isWhitespace = d :: text ++ behind := by
        apply dropWhile_of_first
        intro c rest heq
        obtain ⟨rfl, -⟩ := List.cons.inj heq
        exact h.first d text rfl
      have hlast : (d :: text).reverse.dropWhile isWhitespace = (d :: text).reverse := by
        apply dropWhile_of_first
        intro c rest heq
        apply h.last rest.reverse c
        rw [← List.reverse_reverse (d :: text), heq, List.reverse_cons]
      have hspace : ∀ c ∈ behind.reverse, isWhitespace c = true :=
        fun c hc => hbehind c (List.mem_reverse.1 hc)
      rw [trim, trimBy, List.dropWhile_append_of_pos hbefore, hfirst, List.reverse_append,
        List.dropWhile_append_of_pos hspace, hlast, List.reverse_reverse]

theorem IsTrimmed.trim_eq {text : List Char} (h : IsTrimmed text) : trim text = text := by
  have htrim := @trim_append [] text [] (by simp) (by simp) h
  rwa [List.append_nil, List.nil_append] at htrim

/-! ### Outside of literals -/

@[simp] theorem squashOutside_nil (pending : Bool) : squashOutside pending [] = [] := rfl

theorem squashOutside_of_whitespace {c : Char} (h : isWhitespace c = true) (pending : Bool)
    (rest : List Char) : squashOutside pending (c :: rest) = squashOutside true rest := by
  rw [squashOutside, if_pos h]

theorem squashOutside_of_solid {c : Char} (h : isWhitespace c = false) (pending : Bool)
    (rest : List Char) :
    squashOutside pending (c :: rest) =
      (if pending then [' '] else []) ++ c :: squashBehind c rest := by
  rw [squashOutside, if_neg (by simp [h])]
  cases pending <;> rfl

/-- White space that has been passed is one blank in front of the next character. -/
theorem squashOutside_append_of_solid {gap : List Char} {c : Char}
    (hgap : ∀ d ∈ gap, isWhitespace d = true) (hc : isWhitespace c = false) (rest : List Char) :
    squashOutside false (gap ++ c :: rest) = squeezed gap ++ c :: squashBehind c rest := by
  have hpassed : ∀ gap : List Char, (∀ d ∈ gap, isWhitespace d = true) →
      squashOutside true (gap ++ c :: rest) = ' ' :: c :: squashBehind c rest := by
    intro gap hgap
    induction gap with
    | nil => exact squashOutside_of_solid hc true rest
    | cons d gap ih =>
        rw [List.cons_append, squashOutside_of_whitespace (hgap d (by simp))]
        exact ih fun e he => hgap e (List.mem_cons_of_mem d he)
  cases gap with
  | nil => exact squashOutside_of_solid hc false rest
  | cons d gap =>
      rw [List.cons_append, squashOutside_of_whitespace (hgap d (by simp))]
      exact hpassed gap fun e he => hgap e (List.mem_cons_of_mem d he)

theorem squashOutside_of_blank {text : List Char} (h : ∀ c ∈ text, isWhitespace c = true)
    (pending : Bool) : squashOutside pending text = [] := by
  induction text generalizing pending with
  | nil => rfl
  | cons c rest ih =>
      rw [squashOutside_of_whitespace (h c (by simp))]
      exact ih (fun d hd => h d (List.mem_cons_of_mem c hd)) true

/-! ### Inside of a literal -/

@[simp] theorem squashInside_nil (quote : Char) : squashInside quote [] = [] := by
  rw [squashInside]

@[simp] theorem squashInside_singleton (quote c : Char) : squashInside quote [c] = [c] := by
  rw [squashInside]

@[simp] theorem squashInside_escape (quote c : Char) (rest : List Char) :
    squashInside quote ('\\' :: c :: rest) = '\\' :: c :: squashInside quote rest := by
  rw [squashInside, if_pos rfl]

theorem squashInside_quote {quote : Char} (h : quote ≠ '\\') (rest : List Char) :
    squashInside quote (quote :: rest) = quote :: squashOutside false rest := by
  cases rest with
  | nil => rw [squashInside_singleton, squashOutside_nil]
  | cons d rest => rw [squashInside, if_neg h, if_pos rfl]

theorem squashInside_plain {quote c : Char} (hslash : c ≠ '\\') (hquote : c ≠ quote)
    (rest : List Char) : squashInside quote (c :: rest) = c :: squashInside quote rest := by
  cases rest with
  | nil => rw [squashInside_singleton, squashInside_nil]
  | cons d rest => rw [squashInside, if_neg hslash, if_neg hquote]

/-! ### Squashing twice -/

mutual

theorem squashOutside_squashOutside (pending : Bool) : ∀ text,
    squashOutside false (squashOutside pending text) = squashOutside pending text
  | [] => rfl
  | c :: rest => by
      cases hc : isWhitespace c with
      | true =>
          rw [squashOutside_of_whitespace hc]
          exact squashOutside_squashOutside true rest
      | false =>
          have hbehind : squashBehind c (squashBehind c rest) = squashBehind c rest := by
            unfold squashBehind
            split
            · rename_i hquote
              exact squashInside_squashInside (ne_backslash_of_isQuote hquote) rest
            · exact squashOutside_squashOutside false rest
          rw [squashOutside_of_solid hc]
          cases pending with
          | false =>
              have hagain := squashOutside_of_solid hc false (squashBehind c rest)
              rwa [hbehind] at hagain
          | true =>
              have hagain := squashOutside_of_solid hc true (squashBehind c rest)
              rw [hbehind] at hagain
              calc
                squashOutside false (' ' :: c :: squashBehind c rest)
                    = squashOutside true (c :: squashBehind c rest) :=
                  squashOutside_of_whitespace isWhitespace_space false _
                _ = ' ' :: c :: squashBehind c rest := hagain

theorem squashInside_squashInside {quote : Char} (h : quote ≠ '\\') : ∀ text,
    squashInside quote (squashInside quote text) = squashInside quote text
  | [] => by rw [squashInside_nil, squashInside_nil]
  | [c] => by rw [squashInside_singleton, squashInside_singleton]
  | c :: d :: rest => by
      by_cases hslash : c = '\\'
      · subst hslash
        rw [squashInside_escape, squashInside_escape, squashInside_squashInside h rest]
      · by_cases hquote : c = quote
        · subst hquote
          rw [squashInside_quote h, squashInside_quote h,
            squashOutside_squashOutside false (d :: rest)]
        · rw [squashInside_plain hslash hquote, squashInside_plain hslash hquote,
            squashInside_squashInside h (d :: rest)]

end

mutual

/-- The last character of a text is kept where it is no white space. -/
theorem exists_squashOutside_append {c : Char} (hc : isWhitespace c = false) (pending : Bool) :
    ∀ front, ∃ kept, squashOutside pending (front ++ [c]) = kept ++ [c]
  | [] => by
      have hend : squashBehind c [] = [] := by
        unfold squashBehind
        split
        · rw [squashInside_nil]
        · rfl
      rw [List.nil_append, squashOutside_of_solid hc, hend]
      exact ⟨_, rfl⟩
  | d :: front => by
      rw [List.cons_append]
      cases hd : isWhitespace d with
      | true =>
          rw [squashOutside_of_whitespace hd]
          exact exists_squashOutside_append hc true front
      | false =>
          have hbehind : ∃ kept, squashBehind d (front ++ [c]) = kept ++ [c] := by
            unfold squashBehind
            split
            · rename_i hquote
              exact exists_squashInside_append hc (ne_backslash_of_isQuote hquote) front
            · exact exists_squashOutside_append hc false front
          obtain ⟨kept, hkept⟩ := hbehind
          rw [squashOutside_of_solid hd, hkept, ← List.cons_append, ← List.append_assoc]
          exact ⟨_, rfl⟩

theorem exists_squashInside_append {c quote : Char} (hc : isWhitespace c = false)
    (h : quote ≠ '\\') : ∀ front, ∃ kept, squashInside quote (front ++ [c]) = kept ++ [c]
  | [] => ⟨[], squashInside_singleton quote c⟩
  | [d] => by
      by_cases hslash : d = '\\'
      · subst hslash
        exact ⟨['\\'], by rw [List.singleton_append, squashInside_escape, squashInside_nil]⟩
      · by_cases hquote : d = quote
        · subst hquote
          obtain ⟨kept, hkept⟩ := exists_squashOutside_append hc false []
          rw [List.singleton_append, squashInside_quote h, ← List.nil_append [c], hkept]
          exact ⟨d :: kept, rfl⟩
        · rw [List.singleton_append, squashInside_plain hslash hquote, squashInside_singleton]
          exact ⟨[d], rfl⟩
  | d :: e :: front => by
      by_cases hslash : d = '\\'
      · subst hslash
        obtain ⟨kept, hkept⟩ := exists_squashInside_append hc h front
        rw [List.cons_append, List.cons_append, squashInside_escape, hkept]
        exact ⟨'\\' :: e :: kept, rfl⟩
      · by_cases hquote : d = quote
        · subst hquote
          obtain ⟨kept, hkept⟩ := exists_squashOutside_append hc false (e :: front)
          rw [List.cons_append, squashInside_quote h, hkept]
          exact ⟨d :: kept, rfl⟩
        · obtain ⟨kept, hkept⟩ := exists_squashInside_append hc h (e :: front)
          rw [List.cons_append, squashInside_plain hslash hquote, hkept]
          exact ⟨d :: kept, rfl⟩

end

/-- A squashed text has no white space at its ends. -/
theorem IsTrimmed.squashOutside {text : List Char} (h : IsTrimmed text) :
    IsTrimmed (squashOutside false text) := by
  constructor
  · intro c rest heq
    cases text with
    | nil => cases heq
    | cons d later =>
        have hd := h.first d later rfl
        rw [squashOutside_of_solid hd] at heq
        obtain ⟨rfl, -⟩ := List.cons.inj heq
        exact hd
  · intro front c heq
    rcases List.eq_nil_or_concat text with rfl | ⟨before, d, rfl⟩
    · simp at heq
    · rw [List.concat_eq_append] at h heq
      have hd := h.last before d rfl
      obtain ⟨kept, hkept⟩ := exists_squashOutside_append hd false before
      rw [hkept] at heq
      obtain ⟨-, rfl⟩ := List.append_singleton_inj.1 heq
      exact hd

/-- What is trimmed is only squashed between its ends. -/
theorem IsTrimmed.squash_eq {text : List Char} (h : IsTrimmed text) :
    squash text = Text.squashOutside false text := by
  rw [squash, h.trim_eq]

theorem squash_squash (text : List Char) : squash (squash text) = squash text := by
  have htrimmed : IsTrimmed (squash text) := (isTrimmed_trim text).squashOutside
  rw [htrimmed.squash_eq]
  exact squashOutside_squashOutside false (trim text)

theorem squashed_squashed (text : String) : squashed (squashed text) = squashed text := by
  rw [squashed, toList_squashed, squash_squash, ← squashed]

end TableModels.Text
