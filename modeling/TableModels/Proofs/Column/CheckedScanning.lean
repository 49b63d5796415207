import TableModels.Proofs.Column.TokenSpans

/-!
# Scanning a text with checks

The tokens of a text can be found with an index into its characters and the byte offset of each. The
texts of words and numbers are then cut out of the text between two byte offsets. `scan` does this
and checks each index, each cut and that every token takes the index further. No check ever fails,
and what it finds are the tokens of the text (`scan_eq`).

## Implementation notes

A check that fails ends a computation with nothing, and an error of the text is a value, so
`Checked` has both. The index `i` and the text that is left are tied by
`chars.drop i = charIndices start rest`.
-/

namespace TableModels.Column

open Source (isIdentStart isIdentRest isIdentRest_of_isIdentStart)

/-- A result or an error, unless a check has failed. -/
abbrev Checked (α : Type) : Type :=
  ExceptT ExpressionError Option α

namespace Checked

variable {α β : Type}

/-- The outcome of a check. -/
def check (found : Option α) : Checked α :=
  ExceptT.lift found

/-- A check that fails. -/
def fault : Checked α :=
  check none

/-- A result or an error, where all checks have been passed. -/
def passed (result : Except ExpressionError α) : Checked α :=
  ExceptT.mk (some result)

theorem check_some_bind (value : α) (next : α → Checked β) :
    check (some value) >>= next = next value := rfl

theorem ok_bind (value : α) (next : α → Checked β) : passed (.ok value) >>= next = next value := rfl

end Checked

open Checked

/-- A token as it is known by its place in the text. -/
structure Span where
  kind : TokenKind
  start : Nat
  stop : Nat

/-- Where a token is. -/
def Token.span (token : Token) : Span :=
  ⟨token.kind, token.offset, token.stop⟩

@[simp] theorem Token.span_kind (token : Token) : token.span.kind = token.kind := rfl

/-- The characters of a text that starts at a byte offset, each with its own offset. -/
def charIndices (offset : Nat) : List Char → List (Nat × Char)
  | [] => []
  | c :: rest => (offset, c) :: charIndices (offset + c.utf8Size) rest

section Characters

variable (chars : List (Nat × Char))

/-- The byte offset of the character at an index, which is `stop` behind the last one. -/
def offsetAt (stop i : Nat) : Nat :=
  chars[i]?.elim stop Prod.fst

/-- The index behind the characters that satisfy the predicate, from an index on. -/
def spanEnd (continues : Char → Bool) (i : Nat) : Nat :=
  if h : i < chars.length then
    if continues chars[i].2 then spanEnd continues (i + 1) else i
  else
    i
termination_by chars.length - i

/-- The content of a literal from an index on, and the index behind its closing quote. A backslash
takes two indices, even when it is the last character. -/
def quotedFrom (quote : Char) (i : Nat) : Option (List Char × Nat) :=
  if h : i < chars.length then
    if chars[i].2 = '\\' then
      (quotedFrom quote (i + 2)).map fun (value, next) =>
        (chars[i + 1]?.elim value fun escaped => unescaped escaped.2 :: value, next)
    else if chars[i].2 = quote then
      some ([], i + 1)
    else
      (quotedFrom quote (i + 1)).map fun (value, next) => (chars[i].2 :: value, next)
  else
    none
termination_by chars.length - i

end Characters

/-- The token at an index, and the index behind it. -/
def spanAt (text : String) (chars : List (Nat × Char)) (i : Nat) : Checked (Span × Nat) := do
  let (start, c) ← check chars[i]?
  if isIdentStart c then
    let next := spanEnd chars isIdentRest i
    let stop := offsetAt chars text.utf8ByteSize next
    let name ← check (slice? text start stop)
    return (⟨.ident name, start, stop⟩, next)
  else if c.isDigit then
    let next := spanEnd chars isNumberRest i
    let stop := offsetAt chars text.utf8ByteSize next
    let literal ← check (slice? text start stop)
    return (⟨.number (String.ofList (literal.toList.filter (· != '_'))), start, stop⟩, next)
  else if c = '"' ∨ c = '\'' ∨ c = '\x60' then
    match quotedFrom chars c (i + 1) with
    | none => throw (.unterminatedLiteral start)
    | some (value, next) =>
        let kind := if c = '\x60' then .template else .string (String.ofList value)
        return (⟨kind, start, offsetAt chars text.utf8ByteSize next⟩, next)
  else if c = '=' ∧ chars[i + 1]?.map Prod.snd = some '>' then
    return (⟨.arrow, start, start + 2⟩, i + 2)
  else if isPunctuation c then
    return (⟨.punct c, start, start + c.utf8Size⟩, i + 1)
  else
    throw (.unexpectedCharacter c start)

/-- The tokens from an index on. -/
def scanFrom (text : String) (chars : List (Nat × Char)) (i : Nat) : Checked (List Span) := do
  if h : i < chars.length then
    if Unicode.isWhitespace chars[i].2 then
      scanFrom text chars (i + 1)
    else
      let (span, next) ← spanAt text chars i
      if hnext : i < next then
        let spans ← scanFrom text chars next
        return span :: spans
      else
        fault
  else
    return []
termination_by chars.length - i

/-- The tokens of a text by their places. -/
def scan (text : String) : Checked (List Span) :=
  scanFrom text (charIndices 0 text.toList) 0

/-! ### Indices and offsets -/

section Indices

variable {chars : List (Nat × Char)} {i start : Nat} {c : Char} {front rest : List Char}

theorem drop_charIndices (start : Nat) (front rest : List Char) :
    (charIndices start (front ++ rest)).drop front.length =
      charIndices (start + byteLength front) rest := by
  induction front generalizing start with
  | nil => rfl
  | cons c others ih =>
      rw [List.cons_append, charIndices, List.length_cons, List.drop_succ_cons, ih, byteLength_cons,
        Nat.add_assoc]

/-- Characters that are passed take the index on by their number and the offset by their bytes. -/
theorem drop_of_append (h : chars.drop i = charIndices start (front ++ rest)) :
    chars.drop (i + front.length) = charIndices (start + byteLength front) rest := by
  rw [← List.drop_drop, h, drop_charIndices]

theorem drop_of_cons (h : chars.drop i = charIndices start (c :: rest)) :
    chars.drop (i + 1) = charIndices (start + c.utf8Size) rest := by
  rw [← List.singleton_append] at h
  exact drop_of_append h

theorem getElem?_of_cons (h : chars.drop i = charIndices start (c :: rest)) :
    chars[i]? = some (start, c) := by
  rw [← List.head?_drop, h]
  rfl

theorem getElem?_of_nil (h : chars.drop i = charIndices start []) : chars[i]? = none := by
  rw [← List.head?_drop, h]
  rfl

theorem map_snd_second (h : chars.drop i = charIndices start (c :: rest)) :
    chars[i + 1]?.map Prod.snd = rest.head? := by
  have hnext := drop_of_cons h
  cases rest with
  | nil => rw [getElem?_of_nil hnext]; rfl
  | cons d later => rw [getElem?_of_cons hnext]; rfl

theorem exists_getElem_of_cons (h : chars.drop i = charIndices start (c :: rest)) :
    ∃ hlt : i < chars.length, chars[i] = (start, c) :=
  List.getElem?_eq_some_iff.1 (getElem?_of_cons h)

theorem not_lt_of_nil (h : chars.drop i = charIndices start []) : ¬ i < chars.length :=
  Nat.not_lt.2 (List.getElem?_eq_none_iff.1 (getElem?_of_nil h))

theorem offsetAt_eq (h : chars.drop i = charIndices start rest) :
    offsetAt chars (start + byteLength rest) i = start := by
  cases rest with
  | nil => rw [offsetAt, getElem?_of_nil h]; rfl
  | cons c later => rw [offsetAt, getElem?_of_cons h]; rfl

theorem spanEnd_eq (continues : Char → Bool) (h : chars.drop i = charIndices start rest) :
    spanEnd chars continues i = i + (rest.takeWhile continues).length := by
  induction rest generalizing i start with
  | nil =>
      rw [spanEnd, dif_neg (not_lt_of_nil h)]
      rfl
  | cons c later ih =>
      obtain ⟨hlt, hget⟩ := exists_getElem_of_cons h
      rw [spanEnd, dif_pos hlt, hget]
      cases hc : continues c with
      | false => simp [hc]
      | true =>
          simp only [if_true, ih (drop_of_cons h), List.takeWhile_cons_of_pos hc, List.length_cons]
          omega

/-- A character that begins a text with no escape at its front is no backslash. -/
theorem ne_backslash (hslash : c = '\\' → rest = [] → False)
    (hescape : ∀ escaped later, c = '\\' → rest = escaped :: later → False) : c ≠ '\\' := by
  rintro rfl
  cases rest with
  | nil => exact hslash rfl rfl
  | cons escaped later => exact hescape escaped later rfl rfl

/-- The literal that is found by indices is the one of the characters. -/
theorem quotedFrom_eq (quote : Char) (h : chars.drop i = charIndices start rest) :
    quotedFrom chars quote i =
      (quoted quote rest).map fun (value, text, _) => (value, i + text.length) := by
  fun_induction quoted quote rest generalizing i start with
  | case1 =>
      rw [quotedFrom, dif_neg (not_lt_of_nil h)]
      rfl
  | case2 =>
      obtain ⟨hlt, hget⟩ := exists_getElem_of_cons h
      have hend : ¬ i + 2 < chars.length := by
        have hone := not_lt_of_nil (drop_of_cons h)
        omega
      rw [quotedFrom, dif_pos hlt, hget, if_pos rfl, quotedFrom, dif_neg hend]
      rfl
  | case3 c later ih =>
      obtain ⟨hlt, hget⟩ := exists_getElem_of_cons h
      have hnext := drop_of_cons h
      rw [quotedFrom, dif_pos hlt, hget, if_pos rfl, getElem?_of_cons hnext,
        ih (drop_of_cons hnext), Option.map_map, Option.map_map]
      congr 1
      funext read
      obtain ⟨value, text, follow⟩ := read
      simp only [Function.comp_apply, Option.elim_some, List.length_cons, Prod.mk.injEq, true_and]
      omega
  | case4 later hslash hescape =>
      obtain ⟨hlt, hget⟩ := exists_getElem_of_cons h
      have hne : quote ≠ '\\' := ne_backslash hslash hescape
      rw [quotedFrom, dif_pos hlt, hget, if_neg hne, if_pos rfl]
      rfl
  | case5 c later hslash hescape hquote ih =>
      obtain ⟨hlt, hget⟩ := exists_getElem_of_cons h
      have hne : c ≠ '\\' := ne_backslash hslash hescape
      rw [quotedFrom, dif_pos hlt, hget, if_neg hne, if_neg hquote, ih (drop_of_cons h),
        Option.map_map, Option.map_map]
      congr 1
      funext read
      obtain ⟨value, text, follow⟩ := read
      simp only [Function.comp_apply, List.length_cons, Prod.mk.injEq, true_and]
      omega

end Indices

/-! ### Tokens at an index -/

/-- The index and the byte offset are those of the text that is left. -/
structure StandsAt (text : String) (chars : List (Nat × Char)) (i start : Nat)
    (left : List Char) : Prop where
  drop : chars.drop i = charIndices start left
  cut : ∃ before, text.toList = before ++ left ∧ byteLength before = start

namespace StandsAt

variable {text : String} {chars : List (Nat × Char)} {i start : Nat} {front left rest : List Char}
  {c : Char}

theorem append (h : StandsAt text chars i start (front ++ rest)) :
    StandsAt text chars (i + front.length) (start + byteLength front) rest := by
  obtain ⟨before, htext, hbefore⟩ := h.cut
  refine ⟨drop_of_append h.drop, before ++ front, ?_, ?_⟩
  · rw [htext, List.append_assoc]
  · rw [byteLength_append, hbefore]

theorem offsetAt_eq (h : StandsAt text chars i start left) :
    offsetAt chars text.utf8ByteSize i = start := by
  obtain ⟨before, htext, hbefore⟩ := h.cut
  rw [← byteLength_toList, htext, byteLength_append, hbefore]
  exact Column.offsetAt_eq h.drop

theorem slice?_eq (h : StandsAt text chars i start (front ++ rest)) :
    slice? text start (start + byteLength front) = some (String.ofList front) := by
  obtain ⟨before, htext, rfl⟩ := h.cut
  exact slice?_append (htext.trans (List.append_assoc ..).symm)

/-- Where the characters that satisfy a predicate end, behind a first one. -/
theorem spanEnd_eq {continues : Char → Bool} (h : StandsAt text chars i start (c :: rest))
    (hfirst : continues c = true) :
    spanEnd chars continues i = i + (c :: rest.takeWhile continues).length := by
  rw [Column.spanEnd_eq continues h.drop, List.takeWhile_cons_of_pos hfirst]

theorem split_takeWhile (h : StandsAt text chars i start (c :: rest)) (continues : Char → Bool) :
    StandsAt text chars i start ((c :: rest.takeWhile continues) ++ rest.dropWhile continues) := by
  rwa [List.cons_append, List.takeWhile_append_dropWhile]

end StandsAt

/-- What is at an index is the lexeme at the front of the text that is left. -/
theorem spanAt_eq {text : String} {chars : List (Nat × Char)} {i start : Nat} {c : Char}
    {rest : List Char} (h : StandsAt text chars i start (c :: rest)) :
    spanAt text chars i = passed
      (match lexeme c rest with
        | .error .unexpected => .error (.unexpectedCharacter c start)
        | .error .unterminated => .error (.unterminatedLiteral start)
        | .ok read => .ok (⟨read.kind, start, start + byteLength read.text⟩,
            i + read.text.length)) := by
  rw [spanAt, getElem?_of_cons h.drop, check_some_bind]
  dsimp only
  rw [map_snd_second h.drop]
  by_cases harrow : c = '=' ∧ rest.head? = some '>'
  · obtain ⟨rfl, hhead⟩ := harrow
    obtain ⟨later, rfl⟩ : ∃ later, rest = '>' :: later := List.head?_eq_some_iff.1 hhead
    have hident : isIdentStart '=' = false := by decide +kernel
    rw [hident]
    have hread := lexeme_of_isLexeme (.arrow rfl rfl : IsLexeme '=' ['>'] later .arrow)
    rw [List.singleton_append] at hread
    rw [hread]
    rfl
  rw [if_neg harrow, lexeme]
  · split
    · rename_i hident
      have hword := h.split_takeWhile isIdentRest
      rw [h.spanEnd_eq (isIdentRest_of_isIdentStart hident), hword.append.offsetAt_eq,
        hword.slice?_eq]
      rfl
    · split
      · rename_i hdigit
        have hword := h.split_takeWhile isNumberRest
        have hfirst : isNumberRest c = true := by simp [isNumberRest, hdigit]
        rw [h.spanEnd_eq hfirst, hword.append.offsetAt_eq, hword.slice?_eq, check_some_bind,
          String.toList_ofList]
        rfl
      · split
        · rw [quotedFrom_eq c (drop_of_cons h.drop)]
          cases hread : quoted c rest with
          | none => rfl
          | some read =>
              obtain ⟨value, word, later⟩ := read
              obtain rfl := quoted_splits hread
              rw [← List.cons_append] at h
              have hindex : i + 1 + word.length = i + (c :: word).length := by
                rw [List.length_cons, Nat.add_assoc, Nat.add_comm 1]
              simp only [Option.map_some]
              rw [hindex, h.append.offsetAt_eq]
              rfl
        · split <;> rfl
  · rintro later rfl rfl
    exact harrow ⟨rfl, rfl⟩

/-! ### All tokens -/

/-- White space in front of a text takes its tokens further, and nothing else. -/
theorem map_span_tokensFrom_cons {c : Char} (hc : Unicode.isWhitespace c = true) (start : Nat)
    (rest : List Char) :
    (tokensFrom start (c :: rest)).map (List.map Token.span) =
      (tokensFrom (start + c.utf8Size) rest).map (List.map Token.span) := by
  have hblank : IsBlank [c] := by
    intro d hd
    rwa [List.mem_singleton.1 hd]
  rw [← List.singleton_append]
  rcases isBlank_or_exists_solid rest with hrest | ⟨gap, first, later, rfl, hgap, hfirst⟩
  · rw [tokensFrom_of_isBlank (hblank.append hrest), tokensFrom_of_isBlank hrest]
  · have hbytes : byteLength ([c] ++ gap) = c.utf8Size + byteLength gap := byteLength_cons c gap
    rw [← List.append_assoc, tokensFrom_of_solid (hblank.append hgap) hfirst,
      tokensFrom_of_solid hgap hfirst, hbytes, ← Nat.add_assoc]
    rcases lexeme first later with fault | read
    · cases fault <;> rfl
    · dsimp only
      cases tokensFrom (start + c.utf8Size + byteLength gap + byteLength read.text) read.rest <;>
        rfl

/-- The tokens that are found by indices are those of the text. -/
theorem scanFrom_eq {text : String} {chars : List (Nat × Char)} {i start : Nat} {left : List Char}
    (h : StandsAt text chars i start left) :
    scanFrom text chars i = passed ((tokensFrom start left).map (List.map Token.span)) := by
  induction hlength : left.length using Nat.strongRecOn generalizing i start left with
  | ind length ih =>
      subst hlength
      rw [scanFrom]
      cases left with
      | nil =>
          rw [dif_neg (not_lt_of_nil h.drop), tokensFrom_of_isBlank isBlank_nil]
          rfl
      | cons c rest =>
          obtain ⟨hlt, hget⟩ := exists_getElem_of_cons h.drop
          rw [dif_pos hlt, hget]
          cases hc : Unicode.isWhitespace c with
          | true =>
              rw [← List.singleton_append] at h
              have hnext : StandsAt text chars (i + 1) (start + c.utf8Size) rest := h.append
              rw [if_pos rfl, map_span_tokensFrom_cons hc]
              exact ih rest.length (Nat.lt_succ_self _) hnext rfl
          | false =>
              have htokens := tokensFrom_of_solid isBlank_nil hc start rest
              rw [List.nil_append] at htokens
              rw [if_neg Bool.false_ne_true, spanAt_eq h, htokens]
              rcases hread : lexeme c rest with fault | read
              · cases fault <;> rfl
              · obtain ⟨hsplit, hne⟩ := lexeme_splits hread
                have hshorter : read.rest.length < (c :: rest).length :=
                  length_rest_lt_of_lexeme hread
                have hmoves : i < i + read.text.length :=
                  Nat.lt_add_of_pos_right (List.length_pos_iff.2 hne)
                rw [hsplit] at h
                dsimp only
                rw [ok_bind]
                dsimp only
                rw [dif_pos hmoves, ih read.rest.length hshorter h.append rfl, byteLength_nil,
                  Nat.add_zero]
                cases tokensFrom (start + byteLength read.text) read.rest <;> rfl

/-- No check of the scan fails, and it finds the tokens of the text. -/
theorem scan_eq (text : String) :
    scan text = passed ((tokenize text.toList).map (List.map Token.span)) := by
  apply scanFrom_eq
  exact ⟨rfl, [], rfl, rfl⟩

end TableModels.Column
