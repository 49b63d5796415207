import TableModels.Proofs.Column.CheckedReading

/-!
# Where unreadable expressions are at fault

A text that is no column expression is at fault somewhere, and each error tells where: at the
character that begins no token, at the quote or the angle bracket that is never closed, or at a
token or the end of the text when the grammar asks for something else. Together with the cut into
tokens and the reader that checks what it does, this makes reading safe (`reads_safely`).

## Implementation notes

The readers of the grammar see the tokens and where the text ends, so their errors are first placed
among the tokens (`ExpressionError.IsAmong`). What that means for the text is told once, by
`ExpressionError.IsAmong.isFoundIn`.
-/

namespace TableModels.Column

/-! ### Errors among the tokens -/

namespace ExpressionError

/-- The error is at one of the tokens or, where something is missing, at the end of the text. -/
def IsAmong (stop : Nat) (tokens : List Token) : ExpressionError → Prop
  | expected _ offset => offset = stop ∨ ∃ token ∈ tokens, token.offset = offset
  | unterminatedLiteral offset => ∃ token ∈ tokens, token.isPunct '<' = true ∧ token.offset = offset
  | _ => False

variable {stop : Nat} {tokens later : List Token} {error : ExpressionError}

theorem IsAmong.of_suffix (h : error.IsAmong stop later) (hsuffix : later <:+ tokens) :
    error.IsAmong stop tokens := by
  cases error with
  | expected what offset =>
      rcases h with h | ⟨token, htoken, hoffset⟩
      · exact Or.inl h
      · exact Or.inr ⟨token, hsuffix.mem htoken, hoffset⟩
  | unterminatedLiteral offset =>
      obtain ⟨token, htoken, hopen⟩ := h
      exact ⟨token, hsuffix.mem htoken, hopen⟩
  | _ => exact h

theorem IsAmong.cons {token : Token} (h : error.IsAmong stop later) :
    error.IsAmong stop (token :: later) :=
  h.of_suffix (List.suffix_cons token later)

theorem isAmong_expected (what : Expectation) (stop : Nat) (tokens : List Token) :
    (expected what (offsetOf stop tokens)).IsAmong stop tokens := by
  cases tokens with
  | nil => exact Or.inl rfl
  | cons token rest => exact Or.inr ⟨token, List.mem_cons_self, rfl⟩

end ExpressionError

open ExpressionError (isAmong_expected)

section Readers

variable {stop : Nat} {tokens : List Token} {error : ExpressionError}

theorem isAmong_of_arguments (h : arguments stop tokens = .error error) :
    error.IsAmong stop tokens := by
  induction hlength : tokens.length using Nat.strongRecOn generalizing tokens with
  | ind length ih =>
      subst hlength
      cases tokens with
      | nil =>
          rw [arguments] at h
          cases h
          exact isAmong_expected .value stop []
      | cons token rest =>
          rw [arguments_cons] at h
          split at h
          · cases h
          · split at h
            · cases h
              exact isAmong_expected .value stop (token :: rest)
            · cases h
              exact Or.inl rfl
            · rename_i value separator later hvalue
              have hsuffix := suffix_of_valueAhead? hvalue
              have hshorter : later.length < (token :: rest).length :=
                Nat.lt_of_succ_lt (length_lt_of_valueAhead? hvalue)
              split at h
              · have hlater := ih _ hshorter (map_eq_error_iff.1 h) rfl
                exact hlater.cons.of_suffix hsuffix
              · split at h
                · cases h
                · cases h
                  exact (isAmong_expected _ stop (separator :: later)).of_suffix hsuffix

theorem isAmong_of_skipTypeArguments (stop : Nat) (h : skipTypeArguments tokens = .error error) :
    error.IsAmong stop tokens := by
  cases tokens with
  | nil => cases h
  | cons token rest =>
      rw [skipTypeArguments] at h
      split at h
      · rename_i hopen
        split at h
        · cases h
        · cases h
          exact ⟨token, List.mem_cons_self, hopen, rfl⟩
      · cases h

theorem isAmong_of_callName (h : callName stop tokens = .error error) :
    error.IsAmong stop tokens := by
  unfold callName at h
  split at h
  · split at h
    · cases h
    · rename_i hskip
      cases h
      exact (isAmong_of_skipTypeArguments stop hskip).cons
  · cases h
    exact isAmong_expected .identifier stop tokens

theorem isAmong_of_argumentsBehind (h : argumentsBehind stop tokens = .error error) :
    error.IsAmong stop tokens := by
  cases tokens with
  | nil => cases h
  | cons token rest =>
      rw [argumentsBehind] at h
      split at h
      · exact (isAmong_of_arguments h).cons
      · cases h

theorem isAmong_of_chainedCalls (h : chainedCalls stop tokens = .error error) :
    error.IsAmong stop tokens := by
  induction hlength : tokens.length using Nat.strongRecOn generalizing tokens with
  | ind length ih =>
      subst hlength
      cases tokens with
      | nil =>
          rw [chainedCalls] at h
          cases h
      | cons token rest =>
          rw [chainedCalls_cons] at h
          split at h
          · rcases bind_eq_error_iff.1 h with hname | ⟨⟨name, next⟩, hname, h⟩
            · exact (isAmong_of_callName hname).cons
            have hnext := suffix_of_callName hname
            rcases bind_eq_error_iff.1 h with hargs | ⟨⟨args, behind⟩, hargs, h⟩
            · exact ((isAmong_of_argumentsBehind hargs).of_suffix hnext).cons
            have hbehind := (suffix_of_argumentsBehind hargs).trans hnext
            have hshorter : behind.length < (token :: rest).length :=
              Nat.lt_succ_of_le hbehind.length_le
            exact ((ih _ hshorter (map_eq_error_iff.1 h) rfl).of_suffix hbehind).cons
          · cases h

theorem isAmong_of_expression (h : expression stop tokens = .error error) :
    error.IsAmong stop tokens := by
  unfold expression at h
  split at h
  · rename_i hname
    cases h
    exact isAmong_of_callName hname
  · cases h
    exact Or.inl rfl
  · rename_i name next later hname
    have hnext := suffix_of_callName hname
    split at h
    · split at h
      · rename_i hargs
        cases h
        exact (isAmong_of_arguments hargs).cons.of_suffix hnext
      · rename_i args behind hargs
        obtain ⟨used, rfl, -⟩ := arguments_eq_ok_iff.1 hargs
        split at h
        · rename_i hcalls
          cases h
          have hbehind := List.suffix_append used behind
          exact ((isAmong_of_chainedCalls hcalls).of_suffix hbehind).cons.of_suffix hnext
        · cases h
    · cases h
      exact (isAmong_expected _ stop (next :: later)).of_suffix hnext

end Readers

/-! ### Errors in the text -/

/-- The character stands in the text at a byte offset. -/
def StandsIn (text : List Char) (c : Char) (offset : Nat) : Prop :=
  ∃ before after, text = before ++ c :: after ∧ byteLength before = offset

/-- A token of the text starts at a byte offset. -/
def StartsToken (text : List Char) (offset : Nat) : Prop :=
  ∃ tokens, tokenize text = .ok tokens ∧ ∃ token ∈ tokens, token.offset = offset

/-- What the error tells about the text holds. -/
def ExpressionError.IsFoundIn (text : String) : ExpressionError → Prop
  | empty => IsBlank text.toList
  | unexpectedCharacter c offset => StandsIn text.toList c offset
  | unterminatedLiteral offset =>
      ∃ c ∈ ['"', '\'', '\x60', '<'], StandsIn text.toList c offset
  | expected _ offset => offset = text.utf8ByteSize ∨ StartsToken text.toList offset
  | trailingInput offset => StartsToken text.toList offset

theorem quote_of_lexeme {c : Char} {rest : List Char}
    (h : lexeme c rest = .error .unterminated) : c ∈ ['"', '\'', '\x60'] := by
  unfold lexeme at h
  split at h
  · cases h
  · split at h
    · cases h
    · split at h
      · rename_i hquote
        simpa using hquote
      · split at h
        · cases h
        · split at h <;> cases h

/-- A text that cannot be cut into tokens is at fault at the character that begins none, or at the
quote that is never closed. -/
theorem exists_fault_of_tokensFrom {start : Nat} {text : List Char} {error : ExpressionError}
    (h : tokensFrom start text = .error error) :
    ∃ c offset, StandsIn text c offset ∧ (error = .unexpectedCharacter c (start + offset) ∨
      error = .unterminatedLiteral (start + offset) ∧ c ∈ ['"', '\'', '\x60']) := by
  induction hlength : text.length using Nat.strongRecOn generalizing start text with
  | ind length ih =>
      subst hlength
      rcases isBlank_or_exists_solid text with hblank | ⟨gap, first, rest, rfl, hgap, hspace⟩
      · rw [tokensFrom_of_isBlank hblank] at h
        cases h
      · rw [tokensFrom_of_solid hgap hspace] at h
        split at h
        · cases h
          exact ⟨first, byteLength gap, ⟨gap, rest, rfl, rfl⟩, Or.inl rfl⟩
        · rename_i hread
          cases h
          exact ⟨first, byteLength gap, ⟨gap, rest, rfl, rfl⟩, Or.inr ⟨rfl, quote_of_lexeme hread⟩⟩
        · rename_i read hread
          obtain ⟨hsplit, -⟩ := lexeme_splits hread
          have hlater := map_eq_error_iff.1 h
          have hshorter : read.rest.length < (gap ++ first :: rest).length := by
            have hlt := length_rest_lt_of_lexeme hread
            rw [List.length_append, List.length_cons]
            omega
          obtain ⟨c, offset, ⟨before, after, hcut, rfl⟩, hfault⟩ := ih _ hshorter hlater rfl
          refine ⟨c, byteLength (gap ++ read.text ++ before), ⟨_, after, ?_, rfl⟩, ?_⟩
          · rw [hsplit, hcut]
            simp only [List.append_assoc]
          · rw [byteLength_append, byteLength_append, ← Nat.add_assoc, ← Nat.add_assoc]
            exact hfault

theorem isFoundIn_of_tokenize {text : String} {error : ExpressionError}
    (h : tokenize text.toList = .error error) : error.IsFoundIn text := by
  obtain ⟨c, offset, hplace, rfl | ⟨rfl, hquote⟩⟩ := exists_fault_of_tokensFrom h
  · rw [Nat.zero_add]
    exact hplace
  · rw [Nat.zero_add]
    exact ⟨c, List.mem_append_left ['<'] hquote, hplace⟩

/-- The character of a punctuation token stands where the token starts. -/
theorem standsIn_of_isPunct {text : List Char} {tokens : List Token} {token : Token} {c : Char}
    (h : tokenize text = .ok tokens) (htoken : token ∈ tokens) (hpunct : token.isPunct c = true) :
    StandsIn text c token.offset := by
  obtain ⟨before, after, start, hcut, hoffset, hread⟩ := exists_cut_of_mem_tokens h htoken
  obtain ⟨first, rest, htext, -, hlexeme⟩ := hread.lexeme
  rw [isPunct_eq_true_iff.1 hpunct] at hlexeme
  obtain rfl := hlexeme.eq_of_punct
  refine ⟨before, rest ++ after, ?_, hoffset⟩
  rw [hcut, htext, List.append_assoc, List.cons_append]

theorem ExpressionError.IsAmong.isFoundIn {text : String} {tokens : List Token}
    {error : ExpressionError} (h : error.IsAmong text.utf8ByteSize tokens)
    (htokens : tokenize text.toList = .ok tokens) : error.IsFoundIn text := by
  cases error with
  | expected what offset =>
      rcases h with h | h
      · exact Or.inl h
      · exact Or.inr ⟨tokens, htokens, h⟩
  | unterminatedLiteral offset =>
      obtain ⟨token, htoken, hopen, rfl⟩ := h
      exact ⟨'<', by simp, standsIn_of_isPunct htokens htoken hopen⟩
  | _ => exact h.elim

theorem isFoundIn_of_parse {text : String} {error : ExpressionError}
    (h : parse text = .error error) : error.IsFoundIn text := by
  unfold parse at h
  split at h
  · rename_i htokens
    cases h
    exact isFoundIn_of_tokenize htokens
  · rename_i htokens
    cases h
    rcases cases_of_tokensFrom htokens with ⟨-, hblank⟩ | ⟨_, _, _, hcons, -⟩
    · exact hblank
    · cases hcons
  · rename_i tokens _ htokens
    split at h
    · rename_i hexpr
      cases h
      exact (isAmong_of_expression hexpr).isFoundIn htokens
    · cases h
    · rename_i expr token rest hexpr
      cases h
      exact ⟨tokens, htokens, token, (suffix_of_expression hexpr).mem List.mem_cons_self, rfl⟩

theorem parse_eq_empty_of_isBlank {text : String} (h : IsBlank text.toList) :
    parse text = .error .empty := by
  rw [parse, tokenize, tokensFrom_of_isBlank h]

/-- Tokens are cut out of a text without loss. No check that is made while the text is scanned and
read fails, whatever the text is. It is empty exactly when it is blank, and every error is found
where it tells that it is. -/
theorem reads_safely (text : String) :
    (∀ tokens, tokenize text.toList = .ok tokens → CutsText text tokens) ∧
      scan text = Checked.passed ((tokenize text.toList).map (List.map Token.span)) ∧
      checkedParse text = Checked.passed (parse text) ∧
      (parse text = .error .empty ↔ IsBlank text.toList) ∧
      ∀ error, parse text = .error error → error.IsFoundIn text := by
  refine ⟨fun tokens h => cutsText_of_tokenize h, scan_eq text, checkedParse_eq text, ?_,
    fun error h => isFoundIn_of_parse h⟩
  exact ⟨fun h => isFoundIn_of_parse h, parse_eq_empty_of_isBlank⟩

end TableModels.Column
