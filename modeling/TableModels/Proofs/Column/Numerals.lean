import TableModels.Proofs.Column.Printing
import Mathlib.Data.List.Induction
import Mathlib.Data.Nat.Digits.Defs

/-!
# Numbers as they are written

A number may be written with underscores between its digits and with zeros in front. The reader
leaves out the underscores and keeps the digits, so that the number which is read at the end is the
one that the digits denote, provided that 32 bits hold it. The numbers that a column gives as its
options are found in the first object among its arguments, under the first entry of their key.

## Implementation notes

An object is described here with the tokens of its values. What it denotes is told apart from where
the tokens of a value stand, since numerals are told by their texts.
-/

namespace TableModels.Column

/-! ### Numerals -/

/-- A digit, and behind it digits and underscores. -/
def IsGroupedNumeral : List Char → Prop
  | [] => False
  | first :: rest => first.isDigit = true ∧ ∀ c ∈ rest, c.isDigit = true ∨ c = '_'

/-- The number that a digit denotes. -/
def digitValue (c : Char) : Nat :=
  c.toNat - '0'.toNat

/-- The number that the digits of a text denote, the last of them counting ones. -/
def numeralValue (text : List Char) : Nat :=
  Nat.ofDigits 10 ((text.filter Char.isDigit).map digitValue).reverse

/-- The text without its underscores and without white space. -/
def compact (text : List Char) : List Char :=
  text.filter fun c => c != '_' && !Unicode.isWhitespace c

theorem natOfDigits_eq (digits : List Char) :
    Value.natOfDigits digits = Nat.ofDigits 10 (digits.map digitValue).reverse := by
  -- the last digit is the one that is read last
  induction digits using List.reverseRecOn with
  | nil => rfl
  | append_singleton digits last ih =>
      calc
        Value.natOfDigits (digits ++ [last])
          = 10 * Value.natOfDigits digits + digitValue last := by
            rw [Value.natOfDigits, List.foldl_append, List.foldl_cons, List.foldl_nil,
              ← Value.natOfDigits, digitValue]
        _ = digitValue last + 10 * Nat.ofDigits 10 (digits.map digitValue).reverse := by
            rw [ih, Nat.add_comm]
        _ = Nat.ofDigits 10 ((digits ++ [last]).map digitValue).reverse := by
            rw [List.map_append, List.reverse_append, List.map_singleton, List.reverse_singleton,
              List.singleton_append, Nat.ofDigits_cons]

namespace IsGroupedNumeral

variable {text : List Char}

theorem mem (h : IsGroupedNumeral text) : ∀ c ∈ text, c.isDigit = true ∨ c = '_' := by
  cases text with
  | nil => exact h.elim
  | cons first rest =>
      intro c hc
      rcases List.mem_cons.1 hc with rfl | hrest
      · exact Or.inl h.1
      · exact h.2 c hrest

/-- What is left of a numeral without its underscores is its digits. -/
theorem filter_eq (h : IsGroupedNumeral text) :
    text.filter (· != '_') = text.filter Char.isDigit := by
  apply List.filter_congr
  intro c hc
  rcases h.mem c hc with hdigit | rfl
  · rw [hdigit, bne_iff_ne]
    rintro rfl
    cases hdigit
  · rfl

/-- A numeral has a digit in front, and so its digits are not empty. -/
theorem exists_digits (h : IsGroupedNumeral text) :
    ∃ first rest, text.filter (· != '_') = first :: rest ∧ first.isDigit = true ∧
      ∀ c ∈ rest, c.isDigit = true := by
  rw [h.filter_eq]
  cases text with
  | nil => exact h.elim
  | cons first rest =>
      refine ⟨first, rest.filter Char.isDigit, List.filter_cons_of_pos h.1, h.1, ?_⟩
      intro c hc
      exact (List.mem_filter.1 hc).2

/-- There is no white space in a numeral. -/
theorem compact_eq (h : IsGroupedNumeral text) : compact text = text.filter (· != '_') := by
  apply List.filter_congr
  intro c hc
  have hspace : Unicode.isWhitespace c = false := by
    rcases h.mem c hc with hdigit | rfl
    · exact Unicode.isWhitespace_of_isDigit hdigit
    · decide +kernel
  rw [hspace, Bool.not_false, Bool.and_true]

/-- The digits of a numeral are read as the number that it denotes, if 32 bits hold it. -/
theorem uint32OfDigits?_eq (h : IsGroupedNumeral text) :
    Value.uint32OfDigits? (text.filter (· != '_')) =
      if numeralValue text < UInt32.size then some (UInt32.ofNat (numeralValue text))
      else none := by
  obtain ⟨first, rest, hdigits, hfirst, hrest⟩ := h.exists_digits
  have hvalue : Value.natOfDigits (text.filter (· != '_')) = numeralValue text := by
    rw [natOfDigits_eq, h.filter_eq, numeralValue]
  have hall : text.filter (· != '_') ≠ [] ∧ (text.filter (· != '_')).all Char.isDigit = true := by
    rw [hdigits, List.all_cons, hfirst, Bool.true_and, List.all_eq_true]
    exact ⟨List.cons_ne_nil first rest, hrest⟩
  rw [Value.uint32OfDigits?, if_pos hall, hvalue]

end IsGroupedNumeral

/-! ### Tokens of numerals -/

namespace Token.IsReadAt

variable {token : Token} {start : Nat} {follow : List Char}

theorem kind_of_isGroupedNumeral (h : token.IsReadAt start follow)
    (htext : IsGroupedNumeral token.text) :
    token.kind = .number (String.ofList (token.text.filter (· != '_'))) := by
  obtain ⟨first, rest, hcut, -, hlexeme⟩ := h.lexeme
  rw [hcut] at htext ⊢
  have hdigit : first.isDigit = true := htext.1
  generalize token.kind = kind at hlexeme ⊢
  cases hlexeme with
  | ident hfirst hrest hstop =>
      rw [isIdentStart_of_isDigit hdigit] at hfirst
      cases hfirst
  | number hident hfirst hrest hstop => rfl
  | quoted hident hnone hquote hread => exact absurd hdigit (Bool.eq_false_iff.1 hnone)
  | arrow hfirst hrest =>
      rw [hfirst] at hdigit
      cases hdigit
  | punct hident hnone hquote hfirst hrest harrow =>
      exact absurd hdigit (Bool.eq_false_iff.1 hnone)

/-- A number that is made of digits is written as a numeral. -/
theorem isGroupedNumeral_of_kind {literal : String} (h : token.IsReadAt start follow)
    (hkind : token.kind = .number literal) (hdigits : ∀ c ∈ literal.toList, c.isDigit = true) :
    IsGroupedNumeral token.text := by
  obtain ⟨first, rest, htext, hfirst, -, rfl⟩ := h.text_of_number hkind
  rw [String.toList_ofList, htext] at hdigits
  rw [htext]
  refine ⟨hfirst, ?_⟩
  intro c hc
  by_cases hunderscore : c = '_'
  · exact Or.inr hunderscore
  · apply Or.inl
    apply hdigits
    exact List.mem_filter.2 ⟨List.mem_cons_of_mem first hc, bne_iff_ne.2 hunderscore⟩

theorem kind_of_minus (h : token.IsReadAt start follow) (htext : token.text = ['-']) :
    token.kind = .punct '-' := by
  obtain ⟨first, rest, hcut, -, hlexeme⟩ := h.lexeme
  rw [htext] at hcut
  obtain ⟨rfl, rfl⟩ := List.cons.inj hcut
  have hseparator : IsSeparator '-' := by decide +kernel
  obtain ⟨-, hident, hdigit, hquote, hequals, -⟩ := hseparator
  generalize token.kind = kind at hlexeme ⊢
  cases hlexeme with
  | ident hfirst hrest hstop => exact absurd hfirst (Bool.eq_false_iff.1 hident)
  | number hident' hfirst hrest hstop => exact absurd hfirst (Bool.eq_false_iff.1 hdigit)
  | quoted hident' hnone hquote' hread => exact absurd hquote' hquote
  | arrow hfirst hrest => exact absurd hfirst hequals
  | punct hident' hnone hquote' hfirst hrest harrow => rfl

end Token.IsReadAt

/-! ### Integers -/

/-- The tokens of an integer: a numeral, or a minus sign and a numeral. -/
inductive IsWrittenInteger : List Token → Prop
  | plain {token : Token} (h : IsGroupedNumeral token.text) : IsWrittenInteger [token]
  | negative {minus token : Token} (hminus : minus.text = ['-'])
      (h : IsGroupedNumeral token.text) : IsWrittenInteger [minus, token]

/-- An integer denotes its own text without underscores and white space: a minus sign or none, and
digits. -/
theorem IsWrittenInteger.runValue_eq {run : List Token} (h : IsWrittenInteger run) {start : Nat}
    {follow : List Char} (hscans : Scans start run follow) :
    ∃ sign first rest, (sign = [] ∨ sign = ['-']) ∧ first.isDigit = true ∧
      (∀ c ∈ rest, c.isDigit = true) ∧ compact (runText run) = sign ++ first :: rest ∧
      runValue run = .number (String.ofList (compact (runText run))) := by
  cases h with
  | @plain token h =>
      obtain ⟨first, rest, hdigits, hfirst, hrest⟩ := h.exists_digits
      have htext : compact (runText [token]) = token.text.filter (· != '_') := by
        rw [runText, List.flatMap_nil, List.append_nil, h.compact_eq]
      have hkind := (scans_singleton.1 hscans).kind_of_isGroupedNumeral h
      refine ⟨[], first, rest, Or.inl rfl, hfirst, hrest, htext.trans hdigits, ?_⟩
      rw [htext]
      exact runValue_of_isLiteral (.number hkind)
  | @negative minus token hminus h =>
      obtain ⟨first, rest, hdigits, hfirst, hrest⟩ := h.exists_digits
      have hread := scans_singleton.1 hscans.2
      have hgap : compact token.gap = [] := by
        apply List.filter_eq_nil_iff.2
        intro c hc
        simp [hread.blank c hc]
      have htext : compact (runText [minus, token]) = '-' :: token.text.filter (· != '_') := by
        calc
          compact (runText [minus, token])
            = compact (['-'] ++ (token.gap ++ token.text)) := by
              rw [runText, hminus, List.flatMap_singleton]
          _ = compact ['-'] ++ (compact token.gap ++ compact token.text) := by
              simp only [compact, List.filter_append]
          _ = '-' :: token.text.filter (· != '_') := by
              rw [hgap, h.compact_eq]
              rfl
      have hkind := hread.kind_of_isGroupedNumeral h
      have hsign := isPunct_eq_true_iff.2 (hscans.1.kind_of_minus hminus)
      refine ⟨['-'], first, rest, Or.inr rfl, hfirst, hrest, ?_, ?_⟩
      · rw [htext, hdigits, List.singleton_append]
      · rw [htext, runValue_of_isLiteral (.negative hsign hkind), ← List.singleton_append,
          String.ofList_append]

/-! ### Options -/

/-- The tokens of an object entry, with its key and the tokens of its value. -/
def IsWrittenEntry (run : List Token) (entry : String × List Token) : Prop :=
  ∃ key colon inside, run = key :: colon :: inside ∧ keyOf? key.kind = some entry.1 ∧
    colon.isPunct ':' = true ∧ IsArgument inside entry.2

/-- The tokens of an object, with the keys and the tokens of the values of its entries. -/
def IsWrittenObject (run : List Token) (entries : List (String × List Token)) : Prop :=
  ∃ brace inside, run = brace :: inside ∧ brace.isPunct '\x7b' = true ∧
    IsListing '\x7d' IsWrittenEntry inside entries

theorem wordValue_eq (name : String) :
    (∃ truth, wordValue name = .bool truth) ∨ wordValue name = .ident name := by
  unfold wordValue
  split
  · exact Or.inl ⟨true, rfl⟩
  · split
    · exact Or.inl ⟨false, rfl⟩
    · exact Or.inr rfl

/-- The entry with what the tokens of its value denote. -/
def readEntry (entry : String × List Token) : String × Value :=
  (entry.1, runValue entry.2)

theorem lookup_map_readEntry (key : String) (entries : List (String × List Token)) :
    (entries.map readEntry).lookup key = (entries.lookup key).map runValue := by
  induction entries with
  | nil => rfl
  | cons entry rest ih =>
      rw [List.map_cons, readEntry, List.lookup_cons, List.lookup_cons, ih]
      cases key == entry.1 <;> rfl

theorem IsWrittenObject.runValue_eq {run : List Token} {entries : List (String × List Token)}
    (h : IsWrittenObject run entries) : runValue run = .object (entries.map readEntry) := by
  obtain ⟨brace, inside, rfl, hbrace, hlisting⟩ := h
  have hentries : IsListing '\x7d' IsEntry inside (entries.map readEntry) := by
    apply hlisting.map
    rintro run entry ⟨key, colon, inside, rfl, hkey, hcolon, hrun, hvalue⟩
    refine ⟨key, colon, inside, rfl, hkey, hcolon, hrun, ?_⟩
    rw [readEntry, hvalue]
  exact runValue_of_isLiteral (.object hbrace hentries)

/-- The tokens that denote an object are written as one. -/
theorem isObject_runValue_iff {run : List Token} :
    (runValue run).isObject = true ↔ ∃ entries, IsWrittenObject run entries := by
  constructor
  · intro h
    rcases isLiteral_or_verbatim run with hliteral | ⟨-, hverbatim⟩
    · generalize runValue run = value at h hliteral
      cases hliteral with
      | @object brace inside entries hbrace hlisting =>
          obtain ⟨written, hwritten, rfl⟩ :
              ∃ written, IsListing '\x7d' IsWrittenEntry inside written ∧
                entries = written.map readEntry := by
            apply hlisting.exists_map
            rintro run ⟨label, value⟩ ⟨key, colon, inner, rfl, hkey, hcolon, hrun, rfl⟩
            exact ⟨(label, inner), ⟨key, colon, inner, rfl, hkey, hcolon, hrun, rfl⟩, rfl⟩
          exact ⟨written, brace, inside, rfl, hbrace, hwritten⟩
      | @word token name hkind =>
          rcases wordValue_eq name with ⟨truth, hword⟩ | hword <;> rw [hword] at h <;> cases h
      | _ => cases h
    · rw [hverbatim] at h
      cases h
  · rintro ⟨entries, hentries⟩
    rw [hentries.runValue_eq]
    rfl

/-- The tokens that denote a number of 32 bits are a single number, which is made of digits. -/
theorem exists_token_of_uint32? {run : List Token} {number : UInt32}
    (h : (runValue run).uint32? = some number) :
    ∃ token literal, run = [token] ∧ token.kind = .number literal ∧
      ∀ c ∈ literal.toList, c.isDigit = true := by
  have hdigits : ∀ {literal : String}, (Value.number literal).uint32? = some number →
      ∀ c ∈ literal.toList, c.isDigit = true := by
    intro literal hliteral
    rw [Value.uint32?, Value.uint32OfDigits?] at hliteral
    split at hliteral
    · rename_i hall
      exact List.all_eq_true.1 hall.2
    · cases hliteral
  rcases isLiteral_or_verbatim run with hliteral | ⟨-, hverbatim⟩
  · generalize runValue run = value at h hliteral
    cases hliteral with
    | @number token literal hkind => exact ⟨token, literal, rfl, hkind, hdigits h⟩
    | @negative minus token literal hminus hkind =>
        -- no sign is a digit
        have hsign : '-' ∈ ("-" ++ literal).toList := by
          rw [String.toList_append]
          exact List.mem_append_left _ List.mem_cons_self
        exact absurd (hdigits h '-' hsign) (by decide)
    | @word token name hkind =>
        rcases wordValue_eq name with ⟨truth, hword⟩ | hword <;> rw [hword] at h <;> cases h
    | _ => cases h
  · rw [hverbatim] at h
    cases h

namespace CallForm

/-- The tokens are the value of the first entry of the key in the first object among the
arguments. -/
def HasOption (form : CallForm) (key : String) (written : List Token) : Prop :=
  ∃ before object after entries, form.arguments = some (before ++ object :: after) ∧
    (∀ run ∈ before, ∀ others, ¬ IsWrittenObject run others) ∧
    IsWrittenObject object entries ∧ entries.lookup key = some written

/-- The option of the key is a numeral, and the number is what it denotes. -/
def HasNumber (form : CallForm) (key : String) (n : Nat) : Prop :=
  ∃ token, form.HasOption key [token] ∧ IsGroupedNumeral token.text ∧ numeralValue token.text = n

end CallForm

namespace ExpressionForm

variable {form : ExpressionForm} {key : String} {tokens : List Token} {start : Nat}
  {follow : List Char}

/-- The value of an option is what its tokens denote. -/
theorem option?_eq_some_iff {value : Value} :
    form.expression.option? key = some value ↔
      ∃ written, form.base.HasOption key written ∧ value = runValue written := by
  have hargs : form.expression.base.args = (form.base.arguments.getD []).map runValue := rfl
  rw [Expression.option?, hargs, List.find?_map]
  constructor
  · intro h
    obtain ⟨object, hobject, hvalue⟩ := Option.bind_eq_some_iff.1 h
    obtain ⟨run, hrun, rfl⟩ := Option.map_eq_some_iff.1 hobject
    obtain ⟨hfirst, before, after, hcut, hbefore⟩ := List.find?_eq_some_iff_append.1 hrun
    obtain ⟨entries, hentries⟩ := isObject_runValue_iff.1 hfirst
    rw [hentries.runValue_eq, Value.valueAt?, lookup_map_readEntry] at hvalue
    obtain ⟨written, hlookup, rfl⟩ := Option.map_eq_some_iff.1 hvalue
    refine ⟨written, ⟨before, run, after, entries, ?_, ?_, hentries, hlookup⟩, rfl⟩
    · cases harguments : form.base.arguments with
      | none => simp [harguments] at hcut
      | some runs => rw [← hcut, harguments, Option.getD_some]
    · intro other hother others hothers
      have hobject := isObject_runValue_iff.2 ⟨others, hothers⟩
      simpa [hobject] using hbefore other hother
  · rintro ⟨written, ⟨before, object, after, entries, harguments, hbefore, hobject, hlookup⟩, rfl⟩
    have hfind : (before ++ object :: after).find? (Value.isObject ∘ runValue) = some object := by
      apply List.find?_eq_some_iff_append.2
      refine ⟨isObject_runValue_iff.2 ⟨entries, hobject⟩, before, after, rfl, ?_⟩
      intro run hrun
      rw [Bool.not_eq_true', ← Bool.not_eq_true]
      intro hother
      obtain ⟨others, hothers⟩ := isObject_runValue_iff.1 hother
      exact hbefore run hrun others hothers
    rw [harguments, Option.getD_some, hfind, Option.map_some, Option.bind_some,
      hobject.runValue_eq, Value.valueAt?, lookup_map_readEntry, hlookup, Option.map_some]

/-- The options of an expression that is read from a text are read from it too. -/
theorem Spells.exists_scans_of_hasOption (h : form.Spells tokens)
    (hscans : Scans start tokens follow) {written : List Token}
    (hoption : form.base.HasOption key written) :
    ∃ start' follow', Scans start' written follow' := by
  obtain ⟨base, chain, rfl, hbase, -, -⟩ := h
  obtain ⟨before, object, after, entries, harguments, -, hobject, hlookup⟩ := hoption
  have hmem : object ∈ before ++ object :: after := List.mem_append_right _ List.mem_cons_self
  obtain ⟨-, start', follow', hread⟩ :=
    hbase.exists_scans (scans_append_iff.1 hscans).1 harguments object hmem
  obtain ⟨brace, inside, rfl, -, hlisting⟩ := hobject
  obtain ⟨front, back, rfl, -⟩ := List.lookup_eq_some_iff.1 hlookup
  obtain ⟨run, start', follow', ⟨label, colon, inner, rfl, -, -, -, rfl⟩, hentry, -⟩ :=
    hlisting.exists_scans hread.2 (key, written) (List.mem_append_right _ List.mem_cons_self)
  exact ⟨_, _, hentry.2.2⟩

/-- A numeral under a key is read as the number that it denotes, if 32 bits hold it. -/
theorem uint32?_of_hasNumber (h : form.Spells tokens) (hscans : Scans start tokens follow) {n : Nat}
    (hnumber : form.base.HasNumber key n) :
    (form.expression.option? key).bind Value.uint32? =
      if n < UInt32.size then some (UInt32.ofNat n) else none := by
  obtain ⟨token, hoption, hnumeral, rfl⟩ := hnumber
  obtain ⟨start', follow', hread⟩ := h.exists_scans_of_hasOption hscans hoption
  have hkind := (scans_singleton.1 hread).kind_of_isGroupedNumeral hnumeral
  have hvalue : form.expression.option? key = some (.number _) :=
    option?_eq_some_iff.2 ⟨[token], hoption, (runValue_of_isLiteral (.number hkind)).symm⟩
  rw [hvalue, Option.bind_some, Value.uint32?, String.toList_ofList, hnumeral.uint32OfDigits?_eq]

/-- A number that is read under a key is written there as a numeral. -/
theorem hasNumber_of_uint32? (h : form.Spells tokens) (hscans : Scans start tokens follow)
    {number : UInt32} (hnumber : (form.expression.option? key).bind Value.uint32? = some number) :
    form.base.HasNumber key number.toNat := by
  obtain ⟨value, hvalue, huint⟩ := Option.bind_eq_some_iff.1 hnumber
  obtain ⟨written, hoption, rfl⟩ := option?_eq_some_iff.1 hvalue
  obtain ⟨start', follow', hread⟩ := h.exists_scans_of_hasOption hscans hoption
  obtain ⟨token, literal, rfl, hkind, hdigits⟩ := exists_token_of_uint32? huint
  have hnumeral := (scans_singleton.1 hread).isGroupedNumeral_of_kind hkind hdigits
  have hvalue := uint32?_of_hasNumber h hscans ⟨token, hoption, hnumeral, rfl⟩
  rw [hnumber] at hvalue
  refine ⟨token, hoption, hnumeral, ?_⟩
  split at hvalue
  · rename_i hlt
    rw [Option.some.inj hvalue, UInt32.toNat_ofNat_of_lt' hlt]
  · cases hvalue

/-! ### Members -/

/-- A call is chained when a member has its name. -/
theorem has_eq_true_iff {name : String} :
    form.expression.has name = true ↔ ∃ member ∈ form.chain, member.name = name := by
  have hchain : form.expression.chain = form.chain.map CallForm.call := rfl
  rw [Expression.has, Expression.modifier?, hchain, List.find?_isSome]
  simp only [List.mem_map, exists_exists_and_eq_and, CallForm.call, beq_iff_eq]

/-- The tokens are the first argument of the first member that is named `default`. -/
def HasDefault (form : ExpressionForm) (written : List Token) : Prop :=
  ∃ before member after others, form.chain = before ++ member :: after ∧
    (∀ other ∈ before, other.name ≠ "default") ∧ member.name = "default" ∧
    member.arguments = some (written :: others)

/-- The default is what its tokens denote. -/
theorem default?_of_hasDefault {written : List Token} (h : form.HasDefault written) :
    form.expression.default? = some (runValue written) := by
  obtain ⟨before, member, after, others, hchain, hbefore, hname, harguments⟩ := h
  have hfind : form.chain.find? ((·.name == "default") ∘ CallForm.call) = some member := by
    apply List.find?_eq_some_iff_append.2
    refine ⟨beq_iff_eq.2 hname, before, after, hchain, ?_⟩
    intro other hother
    rw [Bool.not_eq_true', Function.comp_apply]
    exact beq_false_of_ne (hbefore other hother)
  have hmodifier : form.expression.modifier? "default" = some member.call := by
    rw [Expression.modifier?, expression, List.find?_map, hfind, Option.map_some]
  rw [Expression.default?, hmodifier, Option.bind_some, CallForm.call, harguments,
    Option.getD_some, List.map_cons, List.head?_cons]

/-- The default of an expression that is read from a text is read from it too. -/
theorem Spells.exists_scans_of_hasDefault (h : form.Spells tokens)
    (hscans : Scans start tokens follow) {written : List Token}
    (hdefault : form.HasDefault written) : ∃ start' follow', Scans start' written follow' := by
  obtain ⟨base, chain, rfl, -, -, hforms⟩ := h
  obtain ⟨before, member, after, others, hchain, -, -, harguments⟩ := hdefault
  have hmem : member ∈ form.chain := hchain ▸ List.mem_append_right _ List.mem_cons_self
  obtain ⟨used, start', follow', hmember, hread⟩ :=
    hforms.exists_scans (scans_append_iff.1 hscans).2 member hmem
  exact (hmember.exists_scans hread harguments written List.mem_cons_self).2

end ExpressionForm

end TableModels.Column
