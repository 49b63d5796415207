import TableModels.Proofs.Column.Denotation
import TableModels.Proofs.Unicode.CharacterClasses

/-!
# Cutting a text into tokens

A list of tokens is what the reader cuts out of a text exactly when the text is the tokens with
their gaps, possibly with white space behind them, and every token is the lexeme that stands where
it was found. `Scans` says this from the tokens, so that lists of tokens can be cut up, put
together and moved.

## Implementation notes

How far a lexeme reaches depends on what is behind it, but on the first character there alone. What
is behind is therefore an argument of `Scans`, and `Scans.of_isDelimited` changes it.
-/

namespace TableModels.Column

open Source (isIdentStart isIdentRest)

/-- White space and nothing else. -/
def IsBlank (text : List Char) : Prop :=
  ∀ c ∈ text, Unicode.isWhitespace c = true

/-- The text of tokens, with the white space in front of each. -/
def spread (tokens : List Token) : List Char :=
  tokens.flatMap fun token => token.gap ++ token.text

/-- The text does not begin with a character that satisfies the predicate. -/
def StopsAt (continues : Char → Bool) (text : List Char) : Prop :=
  ∀ c, text.head? = some c → continues c = false

/-- A character behind which no lexeme goes on. -/
def IsDelimiter (c : Char) : Prop :=
  isIdentRest c = false ∧ isNumberRest c = false ∧ c ≠ '>'

instance : DecidablePred IsDelimiter := fun _ => inferInstanceAs (Decidable (_ ∧ _ ∧ _))

/-- The text begins with a character behind which no lexeme goes on, if it begins at all. -/
def IsDelimited (text : List Char) : Prop :=
  ∀ c, text.head? = some c → IsDelimiter c

@[simp] theorem spread_nil : spread [] = [] := rfl

@[simp] theorem spread_cons (token : Token) (rest : List Token) :
    spread (token :: rest) = token.gap ++ token.text ++ spread rest := by
  simp [spread]

@[simp] theorem spread_append (first second : List Token) :
    spread (first ++ second) = spread first ++ spread second := by
  simp [spread]

theorem runText_cons (first : Token) (run : List Token) :
    runText (first :: run) = first.text ++ spread run := rfl

@[simp] theorem byteLength_append (first second : List Char) :
    byteLength (first ++ second) = byteLength first + byteLength second := by
  induction first with
  | nil => simp [byteLength]
  | cons c rest ih =>
      simp only [byteLength, List.cons_append, List.foldr_cons] at ih ⊢
      omega

/-! ### Beginnings of a text -/

/-- Where a beginning of a text is all that satisfies a predicate. -/
theorem takeWhile_append_eq_iff {continues : Char → Bool} {text later : List Char} :
    (text ++ later).takeWhile continues = text ↔
      (∀ c ∈ text, continues c = true) ∧ StopsAt continues later := by
  constructor
  · intro h
    have hall : ∀ c ∈ text, continues c = true := by
      rw [← h]
      exact List.all_eq_true.1 List.all_takeWhile
    refine ⟨hall, ?_⟩
    rw [List.takeWhile_append_of_pos hall] at h
    have hnil : later.takeWhile continues = [] := by simpa using h
    intro c hc
    cases later with
    | nil => cases hc
    | cons d rest =>
        cases hc
        cases hd : continues c with
        | false => rfl
        | true => simp [hd] at hnil
  · rintro ⟨hall, hstop⟩
    rw [List.takeWhile_append_of_pos hall]
    cases later with
    | nil => simp
    | cons d rest => simp [hstop d rfl]

/-- What is behind a beginning that is all that satisfies a predicate. -/
theorem dropWhile_append_of_takeWhile {continues : Char → Bool} {text later : List Char}
    (h : (text ++ later).takeWhile continues = text) :
    (text ++ later).dropWhile continues = later := by
  have hsplit := @List.takeWhile_append_dropWhile _ continues (text ++ later)
  rw [h] at hsplit
  exact List.append_cancel_left hsplit

theorem isBlank_nil : IsBlank [] := by
  simp [IsBlank]

theorem isBlank_space : IsBlank [' '] := by
  intro c hc
  obtain rfl := List.mem_singleton.1 hc
  decide

theorem IsBlank.notMem {text : List Char} (h : IsBlank text) {c : Char}
    (hc : Unicode.isWhitespace c = false) : c ∉ text :=
  fun hmem => Bool.eq_false_iff.1 hc (h c hmem)

theorem IsBlank.append {first second : List Char} (hfirst : IsBlank first)
    (hsecond : IsBlank second) : IsBlank (first ++ second) := by
  intro c hc
  rcases List.mem_append.1 hc with hc | hc
  · exact hfirst c hc
  · exact hsecond c hc

/-! ### What is behind a lexeme -/

/-- A text that may stand behind a lexeme in the place of another: it begins like the other, or
with a delimiter. -/
def MayFollow (follow other : List Char) : Prop :=
  ∀ c, other.head? = some c → follow.head? = some c ∨ IsDelimiter c

theorem IsDelimited.mayFollow {follow other : List Char} (h : IsDelimited other) :
    MayFollow follow other :=
  fun c hc => Or.inr (h c hc)

theorem StopsAt.of_mayFollow {continues : Char → Bool} {follow other : List Char}
    (h : StopsAt continues follow) (hother : MayFollow follow other)
    (hdelimiter : ∀ c, IsDelimiter c → continues c = false) : StopsAt continues other := by
  intro c hc
  rcases hother c hc with hsame | hstop
  · exact h c hsame
  · exact hdelimiter c hstop

/-- A lexeme of characters that satisfy a predicate, in front of a text at which they stop. -/
theorem spanned_eq_iff {first : Char} {continues : Char → Bool} {rest follow : List Char}
    {kindOf : List Char → TokenKind} {kind : TokenKind} :
    spanned first continues (rest ++ follow) kindOf = ⟨kind, first :: rest, follow⟩ ↔
      kind = kindOf (first :: rest) ∧ (∀ c ∈ rest, continues c = true) ∧
        StopsAt continues follow := by
  rw [← takeWhile_append_eq_iff]
  simp only [spanned, Lexeme.mk.injEq, List.cons.injEq, true_and]
  constructor
  · rintro ⟨hkind, htake, -⟩
    rw [htake] at hkind
    exact ⟨hkind.symm, htake⟩
  · rintro ⟨rfl, htake⟩
    rw [htake]
    exact ⟨rfl, rfl, dropWhile_append_of_takeWhile htake⟩

/-- A literal ends at its closing quote, whatever is behind it. -/
theorem quoted_append {quote : Char} {source value text later : List Char}
    (h : quoted quote source = some (value, text, later)) (follow : List Char) :
    quoted quote (text ++ follow) = some (value, text, follow) := by
  fun_induction quoted quote source generalizing value text later with
  | case1 => simp at h
  | case2 => simp at h
  | case3 c rest ih =>
      obtain ⟨⟨v, t, l⟩, hq, he⟩ := Option.map_eq_some_iff.1 h
      simp only [Prod.mk.injEq] at he
      obtain ⟨rfl, rfl, rfl⟩ := he
      simp [quoted, ih hq]
  | case4 rest hslash hescape =>
      simp only [Option.some.injEq, Prod.mk.injEq] at h
      obtain ⟨rfl, rfl, rfl⟩ := h
      have hne : quote ≠ '\\' := by
        rintro rfl
        cases rest with
        | nil => exact hslash rfl rfl
        | cons c later => exact hescape c later rfl rfl
      rw [List.singleton_append, quoted.eq_def]
      split <;> simp_all
  | case5 c rest hslash hescape hquote ih =>
      obtain ⟨⟨v, t, l⟩, hq, he⟩ := Option.map_eq_some_iff.1 h
      simp only [Prod.mk.injEq] at he
      obtain ⟨rfl, rfl, rfl⟩ := he
      have hrest := ih hq
      have hne : c ≠ '\\' := by
        rintro rfl
        cases rest with
        | nil => exact hslash rfl rfl
        | cons c later => exact hescape c later rfl rfl
      rw [List.cons_append, quoted.eq_def]
      split <;> simp_all

theorem isIdentStart_of_isDigit {c : Char} (h : c.isDigit = true) : isIdentStart c = false := by
  have hclass : c.isDigit = true → isIdentStart c = false :=
    Unicode.ascii_cases c (Unicode.isMark_of_isDigit h).1 (by decide +kernel)
  exact hclass h

/-- The kinds of lexemes: the text `first :: rest` is a lexeme of the kind in front of `follow`. -/
inductive IsLexeme (first : Char) (rest follow : List Char) : TokenKind → Prop
  | ident (hfirst : isIdentStart first = true) (hrest : ∀ c ∈ rest, isIdentRest c = true)
      (hstop : StopsAt isIdentRest follow) :
      IsLexeme first rest follow (.ident (String.ofList (first :: rest)))
  | number (hident : isIdentStart first = false) (hfirst : first.isDigit = true)
      (hrest : ∀ c ∈ rest, isNumberRest c = true) (hstop : StopsAt isNumberRest follow) :
      IsLexeme first rest follow
        (.number (String.ofList ((first :: rest).filter (· != '_'))))
  | quoted {value : List Char} (hident : isIdentStart first = false)
      (hdigit : first.isDigit = false) (hquote : first = '"' ∨ first = '\'' ∨ first = '\x60')
      (hread : Column.quoted first (rest ++ follow) = some (value, rest, follow)) :
      IsLexeme first rest follow
        (if first = '\x60' then .template else .string (String.ofList value))
  | arrow (hfirst : first = '=') (hrest : rest = ['>']) : IsLexeme first rest follow .arrow
  | punct (hident : isIdentStart first = false) (hdigit : first.isDigit = false)
      (hquote : ¬ (first = '"' ∨ first = '\'' ∨ first = '\x60'))
      (hfirst : isPunctuation first = true) (hrest : rest = [])
      (harrow : first = '=' → StopsAt (· == '>') follow) :
      IsLexeme first rest follow (.punct first)

theorem isLexeme_of_lexeme {first : Char} {rest follow : List Char} {kind : TokenKind}
    (h : lexeme first (rest ++ follow) = .ok ⟨kind, first :: rest, follow⟩) :
    IsLexeme first rest follow kind := by
  unfold lexeme at h
  split at h
  · rename_i hident
    rw [Except.ok.injEq, spanned_eq_iff] at h
    obtain ⟨rfl, hrest, hstop⟩ := h
    exact .ident hident hrest hstop
  · rename_i hident
    have hident' : isIdentStart first = false := by simpa using hident
    split at h
    · rename_i hdigit
      rw [Except.ok.injEq, spanned_eq_iff] at h
      obtain ⟨rfl, hrest, hstop⟩ := h
      exact .number hident' hdigit hrest hstop
    · rename_i hdigit
      have hdigit' : first.isDigit = false := by simpa using hdigit
      split at h
      · rename_i hquote
        split at h
        · cases h
        · rename_i value text later hread
          simp only [Except.ok.injEq, Lexeme.mk.injEq, List.cons.injEq, true_and] at h
          obtain ⟨rfl, rfl, rfl⟩ := h
          exact .quoted hident' hdigit' hquote hread
      · rename_i hquote
        split at h
        · simp only [Except.ok.injEq, Lexeme.mk.injEq, List.cons.injEq] at h
          obtain ⟨rfl, ⟨-, rfl⟩, -⟩ := h
          exact .arrow rfl rfl
        · rename_i harrow
          split at h
          · rename_i hpunct
            simp only [Except.ok.injEq, Lexeme.mk.injEq, List.cons.injEq, true_and] at h
            obtain ⟨rfl, hnil, -⟩ := h
            obtain rfl : rest = [] := hnil.symm
            refine .punct hident' hdigit' hquote hpunct rfl ?_
            rintro rfl c hc
            cases follow with
            | nil => cases hc
            | cons d later =>
                cases hc
                exact beq_false_of_ne fun heq => harrow later rfl (by rw [heq]; rfl)
          · cases h

theorem lexeme_of_isLexeme {first : Char} {rest follow : List Char} {kind : TokenKind}
    (h : IsLexeme first rest follow kind) :
    lexeme first (rest ++ follow) = .ok ⟨kind, first :: rest, follow⟩ := by
  unfold lexeme
  cases h with
  | ident hfirst hrest hstop =>
      rw [if_pos hfirst, spanned_eq_iff.2 ⟨rfl, hrest, hstop⟩]
  | number hident hfirst hrest hstop =>
      rw [if_neg (by simp [hident]), if_pos hfirst, spanned_eq_iff.2 ⟨rfl, hrest, hstop⟩]
  | quoted hident hdigit hquote hread =>
      rw [if_neg (by simp [hident]), if_neg (by simp [hdigit]), if_pos hquote, hread]
  | arrow hfirst hrest =>
      subst hfirst hrest
      have hident : isIdentStart '=' = false := by decide +kernel
      rw [if_neg (by simp [hident]), if_neg (by decide), if_neg (by decide)]
      rfl
  | punct hident hdigit hquote hfirst hrest harrow =>
      subst hrest
      rw [if_neg (by simp [hident]), if_neg (by simp [hdigit]), if_neg hquote]
      split
      · rename_i later heq
        have hstop := harrow rfl '>' (by rw [← List.nil_append follow, heq]; rfl)
        cases hstop
      · rw [if_pos hfirst]
        rfl

/-- A lexeme stays what it is when something else comes behind it that does not go on with it. -/
theorem IsLexeme.congr {first : Char} {rest follow other : List Char} {kind : TokenKind}
    (h : IsLexeme first rest follow kind) (hother : MayFollow follow other) :
    IsLexeme first rest other kind := by
  cases h with
  | ident hfirst hrest hstop =>
      exact .ident hfirst hrest (hstop.of_mayFollow hother fun c hc => hc.1)
  | number hident hfirst hrest hstop =>
      exact .number hident hfirst hrest (hstop.of_mayFollow hother fun c hc => hc.2.1)
  | quoted hident hdigit hquote hread =>
      exact .quoted hident hdigit hquote (quoted_append hread other)
  | arrow hfirst hrest => exact .arrow hfirst hrest
  | punct hident hdigit hquote hfirst hrest harrow =>
      apply IsLexeme.punct hident hdigit hquote hfirst hrest
      intro hequals
      apply (harrow hequals).of_mayFollow hother
      intro c hc
      exact beq_false_of_ne hc.2.2

theorem IsLexeme.eq_of_punct {first c : Char} {rest follow : List Char}
    (h : IsLexeme first rest follow (.punct c)) : first = c := by
  generalize hkind : TokenKind.punct c = kind at h
  cases h with
  | punct => exact (TokenKind.punct.inj hkind).symm
  | quoted => split at hkind <;> cases hkind
  | _ => cases hkind

/-! ### Lists of tokens -/

/-- The token is what is read from an offset on, in front of the text `follow`. -/
structure Token.IsReadAt (token : Token) (start : Nat) (follow : List Char) : Prop where
  blank : IsBlank token.gap
  offset : token.offset = start + byteLength token.gap
  lexeme : ∃ first rest, token.text = first :: rest ∧ Unicode.isWhitespace first = false ∧
    IsLexeme first rest follow token.kind

/-- The tokens are what is read from an offset on, in front of the text `follow`. -/
def Scans (start : Nat) : List Token → List Char → Prop
  | [], _ => True
  | token :: rest, follow => token.IsReadAt start (spread rest ++ follow) ∧
      Scans token.stop rest follow

/-- A token stays what is read when something else comes behind it that does not go on with it. -/
theorem Token.IsReadAt.congr {token : Token} {start : Nat} {follow other : List Char}
    (h : token.IsReadAt start follow) (hother : MayFollow follow other) :
    token.IsReadAt start other := by
  obtain ⟨first, rest, htext, hspace, hread⟩ := h.lexeme
  exact ⟨h.blank, h.offset, first, rest, htext, hspace, hread.congr hother⟩

/-- Tokens in front of others are read up to the others. -/
theorem scans_append_iff {start : Nat} {first second : List Token} {follow : List Char} :
    Scans start (first ++ second) follow ↔
      Scans start first (spread second ++ follow) ∧
        Scans (start + byteLength (spread first)) second follow := by
  induction first generalizing start with
  | nil => simp [Scans, byteLength]
  | cons token rest ih =>
      simp only [List.cons_append, Scans, ih, spread_append, List.append_assoc, ← and_assoc]
      refine and_congr_right fun h => ?_
      have hstop : token.stop + byteLength (spread rest) =
          start + byteLength (spread (token :: rest)) := by
        simp only [Token.stop, h.1.offset, spread_cons, byteLength_append]
        omega
      rw [hstop]

/-- Tokens are read as they are in front of any text that begins with a delimiter. -/
theorem Scans.of_isDelimited {start : Nat} {tokens : List Token} {follow other : List Char}
    (h : Scans start tokens follow) (hother : IsDelimited other) : Scans start tokens other := by
  induction tokens generalizing start with
  | nil => trivial
  | cons token rest ih =>
      refine ⟨h.1.congr ?_, ih h.2⟩
      -- behind the last token the delimiter stands, behind every other the next token
      intro c hc
      cases hspread : spread rest with
      | nil =>
          rw [hspread] at hc
          exact Or.inr (hother c hc)
      | cons d later =>
          rw [hspread] at hc
          exact Or.inl hc

/-- The tokens where they stand when they are read from an offset on. -/
def place (start : Nat) : List Token → List Token
  | [] => []
  | token :: rest =>
      let placed : Token := { token with offset := start + byteLength token.gap }
      placed :: place placed.stop rest

@[simp] theorem spread_place (start : Nat) (tokens : List Token) :
    spread (place start tokens) = spread tokens := by
  induction tokens generalizing start with
  | nil => rfl
  | cons token rest ih => simp only [place, spread_cons, ih]

theorem map_unplaced_place (start : Nat) (tokens : List Token) :
    (place start tokens).map Token.unplaced = tokens.map Token.unplaced := by
  induction tokens generalizing start with
  | nil => rfl
  | cons token rest ih =>
      simp only [place, List.map_cons, ih, List.cons.injEq, and_true]
      rfl

/-- Tokens may be moved. -/
theorem Scans.place {start : Nat} {tokens : List Token} {follow : List Char}
    (h : Scans start tokens follow) (other : Nat) :
    Scans other (place other tokens) follow := by
  induction tokens generalizing start other with
  | nil => trivial
  | cons token rest ih =>
      refine ⟨⟨h.1.blank, rfl, ?_⟩, ih h.2 _⟩
      rw [spread_place]
      exact h.1.lexeme

/-! ### What the reader cuts out of a text -/

theorem isBlank_takeWhile (text : List Char) : IsBlank (text.takeWhile Unicode.isWhitespace) :=
  List.all_eq_true.1 List.all_takeWhile

/-- A text is blank, or white space stands in front of a character that is none. -/
theorem isBlank_or_exists_solid (text : List Char) :
    IsBlank text ∨ ∃ gap c rest, text = gap ++ c :: rest ∧ IsBlank gap ∧
      Unicode.isWhitespace c = false := by
  have hsplit := @List.takeWhile_append_dropWhile _ Unicode.isWhitespace text
  have hhead := List.head?_dropWhile_not Unicode.isWhitespace text
  cases hrest : text.dropWhile Unicode.isWhitespace with
  | nil =>
      rw [hrest, List.append_nil] at hsplit
      exact Or.inl (hsplit ▸ isBlank_takeWhile text)
  | cons c rest =>
      rw [hrest] at hsplit hhead
      exact Or.inr ⟨_, c, rest, hsplit.symm, isBlank_takeWhile text, by simpa using hhead⟩

theorem tokensFrom_of_isBlank {start : Nat} {blank : List Char} (h : IsBlank blank) :
    tokensFrom start blank = .ok [] := by
  have hrest : blank.dropWhile Unicode.isWhitespace = [] := by
    rw [← List.append_nil blank]
    exact List.dropWhile_append_of_pos h
  rw [tokensFrom.eq_def]
  split
  · rfl
  · rename_i hcons
    rw [hrest] at hcons
    cases hcons

/-- The tokens of a text behind white space: the lexeme there, and the tokens of what follows. -/
theorem tokensFrom_of_solid {gap : List Char} {c : Char} (hgap : IsBlank gap)
    (hc : Unicode.isWhitespace c = false) (start : Nat) (rest : List Char) :
    tokensFrom start (gap ++ c :: rest) =
      match lexeme c rest with
      | .error .unexpected => .error (.unexpectedCharacter c (start + byteLength gap))
      | .error .unterminated => .error (.unterminatedLiteral (start + byteLength gap))
      | .ok read =>
          (tokensFrom (start + byteLength gap + byteLength read.text) read.rest).map
            (⟨read.kind, start + byteLength gap, gap, read.text⟩ :: ·) := by
  have htake : (gap ++ c :: rest).takeWhile Unicode.isWhitespace = gap := by
    apply takeWhile_append_eq_iff.2
    refine ⟨hgap, ?_⟩
    rintro d hd
    cases hd
    exact hc
  have hdrop := dropWhile_append_of_takeWhile htake
  rw [tokensFrom.eq_def]
  split
  · rename_i hnil
    rw [hdrop] at hnil
    cases hnil
  · rename_i first others hcons
    rw [hdrop] at hcons
    obtain ⟨rfl, rfl⟩ := List.cons.inj hcons
    rw [htake]
    split
    · rename_i hread
      rw [hread]
    · rename_i hread
      rw [hread]
    · rename_i read hread
      rw [hread]
      dsimp only
      cases tokensFrom (start + byteLength gap + byteLength read.text) read.rest <;> rfl

/-- What the reader cuts off a text first, unless the text is blank. -/
theorem cases_of_tokensFrom {start : Nat} {text : List Char} {tokens : List Token}
    (h : tokensFrom start text = .ok tokens) :
    (tokens = [] ∧ IsBlank text) ∨
      ∃ token later follow, tokens = token :: later ∧ text = token.gap ++ (token.text ++ follow) ∧
        token.IsReadAt start follow ∧ tokensFrom token.stop follow = .ok later := by
  rcases isBlank_or_exists_solid text with hblank | ⟨gap, first, rest, rfl, hgap, hspace⟩
  · rw [tokensFrom_of_isBlank hblank] at h
    cases h
    exact Or.inl ⟨rfl, hblank⟩
  · rw [tokensFrom_of_solid hgap hspace] at h
    split at h
    · cases h
    · cases h
    · rename_i read hread
      obtain ⟨hlexeme, hne⟩ := lexeme_splits hread
      obtain ⟨kind, word, follow⟩ := read
      cases word with
      | nil => exact absurd rfl hne
      | cons c others =>
          simp only [List.cons_append, List.cons.injEq] at hlexeme
          obtain ⟨rfl, rfl⟩ := hlexeme
          obtain ⟨later, hlater, rfl⟩ := map_eq_ok_iff.1 h
          exact Or.inr ⟨_, later, follow, rfl, rfl, ⟨hgap, rfl, first, others, rfl, hspace,
            isLexeme_of_lexeme hread⟩, hlater⟩

/-- The reader cuts a token off the text that it begins. -/
theorem tokensFrom_of_isReadAt {token : Token} {start : Nat} {follow : List Char}
    {later : List Token} (h : token.IsReadAt start follow)
    (hlater : tokensFrom token.stop follow = .ok later) :
    tokensFrom start (token.gap ++ (token.text ++ follow)) = .ok (token :: later) := by
  obtain ⟨first, others, htext, hspace, hlexeme⟩ := h.lexeme
  have hstop : start + byteLength token.gap + byteLength (first :: others) = token.stop := by
    rw [Token.stop, h.offset, htext]
  rw [htext, List.cons_append, tokensFrom_of_solid h.blank hspace, lexeme_of_isLexeme hlexeme]
  dsimp only
  rw [hstop, hlater, ← h.offset, ← htext]
  rfl

/-- What the reader cuts a text into makes up the text, up to white space behind it. -/
theorem scans_of_tokensFrom {start : Nat} {text : List Char} {tokens : List Token}
    (h : tokensFrom start text = .ok tokens) :
    ∃ blank, text = spread tokens ++ blank ∧ IsBlank blank ∧ Scans start tokens blank := by
  induction tokens generalizing start text with
  | nil =>
      rcases cases_of_tokensFrom h with ⟨-, hblank⟩ | ⟨token, later, follow, heq, -⟩
      · exact ⟨text, rfl, hblank, trivial⟩
      · cases heq
  | cons token rest ih =>
      rcases cases_of_tokensFrom h with ⟨heq, -⟩ | ⟨first, later, follow, heq, rfl, hread, hrest⟩
      · cases heq
      · obtain ⟨rfl, rfl⟩ := List.cons.inj heq
        obtain ⟨blank, rfl, hblank, hscans⟩ := ih hrest
        refine ⟨blank, ?_, hblank, hread, hscans⟩
        rw [spread_cons, List.append_assoc, List.append_assoc]

/-- The reader cuts a text into the tokens that make it up. -/
theorem tokensFrom_of_scans {start : Nat} {tokens : List Token} {blank : List Char}
    (hblank : IsBlank blank) (hscans : Scans start tokens blank) :
    tokensFrom start (spread tokens ++ blank) = .ok tokens := by
  induction tokens generalizing start with
  | nil => exact tokensFrom_of_isBlank hblank
  | cons token rest ih =>
      have hlater := ih hscans.2
      have htext := tokensFrom_of_isReadAt hscans.1 hlater
      rwa [spread_cons, List.append_assoc, List.append_assoc]

/-- The tokens of a text are those that make it up, up to white space behind them. -/
theorem tokenize_eq_ok_iff {text : List Char} {tokens : List Token} :
    tokenize text = .ok tokens ↔
      ∃ blank, text = spread tokens ++ blank ∧ IsBlank blank ∧ Scans 0 tokens blank := by
  constructor
  · exact scans_of_tokensFrom
  · rintro ⟨blank, rfl, hblank, hscans⟩
    exact tokensFrom_of_scans hblank hscans

end TableModels.Column
