import TableModels.Proofs.Column.Backtracking
import TableModels.Proofs.Column.Grammar
import TableModels.Proofs.Column.Lexing
import TableModels.Text.QuotedLiteral

/-!
# Printing column expressions

Every call is printed as its name and its arguments in parentheses, and points stand between the
calls. Strings and keys are printed as literals between double quotes, verbatim values as they are.
A value is rendered when its printed text is cut into tokens that denote it, in front of whatever
begins with a delimiter. Lists between brackets are rendered when their elements are.

## Implementation notes

Tokens carry byte offsets and the white space in front of them, so a rendering is asked for at every
offset and with every gap. What is printed before a value then does not matter to the value.
-/

namespace TableModels.Column

open Source (isIdentStart isIdentRest)

/-! ### The printer -/

/-- A string between double quotes, with a backslash before quotes and backslashes. -/
def quotation (value : String) : List Char :=
  '"' :: (Text.QuotedLiteral.escape value.toList ++ ['"'])

/-- Pieces of text with commas between them. -/
def separated (pieces : List (List Char)) : List Char :=
  List.intercalate [',', ' '] pieces

mutual

/-- The text of a value. -/
def Value.print : Value → List Char
  | .string value => quotation value
  | .number literal => literal.toList
  | .bool true => "true".toList
  | .bool false => "false".toList
  | .ident name => name.toList
  | .object entries => '\x7b' :: (separated (printEntries entries) ++ ['\x7d'])
  | .array items => '[' :: (separated (printItems items) ++ [']'])
  | .verbatim text => text.toList

/-- The texts of object entries. -/
def printEntries : List (String × Value) → List (List Char)
  | [] => []
  | (key, value) :: rest => (quotation key ++ ':' :: ' ' :: value.print) :: printEntries rest

/-- The texts of array items. -/
def printItems : List Value → List (List Char)
  | [] => []
  | value :: rest => value.print :: printItems rest

end

/-- The text of a call. -/
def Call.print (call : Call) : List Char :=
  call.name.toList ++ '(' :: (separated (call.args.map Value.print) ++ [')'])

/-- The text of an expression. -/
def Expression.print (expr : Expression) : String :=
  String.ofList (List.intercalate ['.'] ((expr.base :: expr.chain).map Call.print))

/-- The text of an object entry. -/
def printEntry (entry : String × Value) : List Char :=
  quotation entry.1 ++ ':' :: ' ' :: entry.2.print

theorem printEntries_eq_map (entries : List (String × Value)) :
    printEntries entries = entries.map printEntry := by
  induction entries with
  | nil => rfl
  | cons entry rest ih => rw [printEntries, ih]; rfl

theorem printItems_eq_map (items : List Value) : printItems items = items.map Value.print := by
  induction items with
  | nil => rfl
  | cons item rest ih => rw [printItems, ih]; rfl

/-! ### Single tokens -/

/-- A punctuation character that is a token wherever it stands. -/
def IsSeparator (c : Char) : Prop :=
  Unicode.isWhitespace c = false ∧ isIdentStart c = false ∧ c.isDigit = false ∧
    ¬ (c = '"' ∨ c = '\'' ∨ c = '\x60') ∧ c ≠ '=' ∧ isPunctuation c = true

instance : DecidablePred IsSeparator :=
  fun _ => inferInstanceAs (Decidable (_ ∧ _ ∧ _ ∧ _ ∧ _ ∧ _))

/-- A token that is read from an offset on, behind the given gap. -/
def tokenAt (kind : TokenKind) (text : List Char) (start : Nat) (gap : List Char) : Token :=
  ⟨kind, start + byteLength gap, gap, text⟩

/-- The token of a punctuation character. -/
def punctAt (c : Char) (start : Nat) (gap : List Char) : Token :=
  tokenAt (.punct c) [c] start gap

@[simp] theorem isPunct_punctAt (c : Char) (start : Nat) (gap : List Char) :
    (punctAt c start gap).isPunct c = true := by
  simp [punctAt, tokenAt, Token.isPunct]

@[simp] theorem gap_tokenAt (kind : TokenKind) (text : List Char) (start : Nat)
    (gap : List Char) : (tokenAt kind text start gap).gap = gap := rfl

@[simp] theorem text_tokenAt (kind : TokenKind) (text : List Char) (start : Nat)
    (gap : List Char) : (tokenAt kind text start gap).text = text := rfl

theorem isReadAt_punctAt {c : Char} (hc : IsSeparator c) {gap : List Char} (hgap : IsBlank gap)
    (start : Nat) (follow : List Char) : (punctAt c start gap).IsReadAt start follow := by
  obtain ⟨hspace, hident, hdigit, hquote, hequals, hpunct⟩ := hc
  exact ⟨hgap, rfl, c, [], rfl, hspace,
    .punct hident hdigit hquote hpunct rfl fun heq => absurd heq hequals⟩

/-- Reading a quoted string gives the string back. -/
theorem quoted_escape (value follow : List Char) :
    quoted '"' (Text.QuotedLiteral.escape value ++ '"' :: follow) =
      some (value, Text.QuotedLiteral.escape value ++ ['"'], follow) := by
  induction value with
  | nil => simp [Text.QuotedLiteral.escape, quoted]
  | cons c rest ih =>
      by_cases h : c = '\\' ∨ c = '"'
      · have hplain : unescaped c = c := by
          rcases h with rfl | rfl <;> decide
        simp [Text.QuotedLiteral.escape, h, quoted, ih, hplain]
      · have hslash : c ≠ '\\' := fun heq => h (Or.inl heq)
        have hquote : c ≠ '"' := fun heq => h (Or.inr heq)
        simp only [Text.QuotedLiteral.escape, h, ↓reduceIte, List.cons_append]
        rw [quoted.eq_def]
        split <;> simp_all

theorem isReadAt_quotation (value : String) {gap : List Char} (hgap : IsBlank gap) (start : Nat)
    (follow : List Char) :
    (tokenAt (.string value) (quotation value) start gap).IsReadAt start follow := by
  have hread : quoted '"' ((Text.QuotedLiteral.escape value.toList ++ ['"']) ++ follow) =
      some (value.toList, Text.QuotedLiteral.escape value.toList ++ ['"'], follow) := by
    rw [List.append_assoc, List.singleton_append, quoted_escape]
  have hlexeme : IsLexeme '"' (Text.QuotedLiteral.escape value.toList ++ ['"']) follow
      (.string (String.ofList value.toList)) :=
    .quoted (by decide +kernel) (by decide) (Or.inl rfl) hread
  rw [String.ofList_toList] at hlexeme
  exact ⟨hgap, rfl, '"', _, rfl, by decide, hlexeme⟩

/-- A token may stand elsewhere and behind another gap. -/
theorem Token.IsReadAt.move {token : Token} {start : Nat} {follow gap : List Char}
    (h : token.IsReadAt start follow) (hgap : IsBlank gap) (start' : Nat) :
    (tokenAt token.kind token.text start' gap).IsReadAt start' follow :=
  ⟨hgap, rfl, h.lexeme⟩

/-- The text of a name is the name. -/
theorem Token.IsReadAt.text_of_ident {token : Token} {start : Nat} {follow : List Char}
    {name : String} (h : token.IsReadAt start follow) (hkind : token.kind = .ident name) :
    token.text = name.toList := by
  obtain ⟨first, rest, htext, hspace, hlexeme⟩ := h.lexeme
  rw [hkind] at hlexeme
  generalize hk : TokenKind.ident name = kind at hlexeme
  cases hlexeme with
  | ident hfirst hrest hstop =>
      cases hk
      rw [htext, String.toList_ofList]
  | quoted hident hdigit hquote hread => split at hk <;> cases hk
  | _ => cases hk

/-- The text of a number begins with a digit, and it is the number once its underscores are left
out. -/
theorem Token.IsReadAt.text_of_number {token : Token} {start : Nat} {follow : List Char}
    {literal : String} (h : token.IsReadAt start follow) (hkind : token.kind = .number literal) :
    ∃ first rest, token.text = first :: rest ∧ first.isDigit = true ∧
      (∀ c ∈ rest, isNumberRest c = true) ∧
      literal = String.ofList (token.text.filter (· != '_')) := by
  obtain ⟨first, rest, htext, hspace, hlexeme⟩ := h.lexeme
  rw [hkind] at hlexeme
  generalize hk : TokenKind.number literal = kind at hlexeme
  cases hlexeme with
  | number hident hfirst hrest hstop =>
      cases hk
      exact ⟨first, rest, htext, hfirst, hrest, by rw [htext]⟩
  | quoted hident hdigit hquote hread => split at hk <;> cases hk
  | _ => cases hk

/-- A number that is written without underscores is read as itself. -/
theorem Token.IsReadAt.isReadAt_literal {token : Token} {start : Nat} {follow other gap : List Char}
    {literal : String} (h : token.IsReadAt start follow) (hkind : token.kind = .number literal)
    (hgap : IsBlank gap) (hother : IsDelimited other) (start' : Nat) :
    (tokenAt (.number literal) literal.toList start' gap).IsReadAt start' other := by
  obtain ⟨first, rest, htext, hfirst, hrest, rfl⟩ := h.text_of_number hkind
  have hunderscore : (first != '_') = true := by
    rw [bne_iff_ne]
    rintro rfl
    cases hfirst
  have hdigits : token.text.filter (· != '_') = first :: rest.filter (· != '_') := by
    rw [htext]
    exact List.filter_cons_of_pos hunderscore
  have hread : IsLexeme first (rest.filter (· != '_')) other (.number (String.ofList
      ((first :: rest.filter (· != '_')).filter (· != '_')))) := by
    refine .number (isIdentStart_of_isDigit hfirst) hfirst ?_ fun c hc => (hother c hc).2.1
    intro c hc
    exact hrest c (List.mem_filter.1 hc).1
  rw [← hdigits] at hread
  simp only [List.filter_filter, Bool.and_self] at hread
  exact ⟨hgap, rfl, first, _, by rw [text_tokenAt, String.toList_ofList, hdigits],
    Unicode.isWhitespace_of_isDigit hfirst, hread⟩

/-! ### Renderings -/

/-- At every offset and behind every gap, the text is cut into tokens that are tokens of the
element, in front of whatever begins with a delimiter. -/
def IsRendered {α : Type} (part : List Token → α → Prop) (text : List Char) (element : α) : Prop :=
  ∀ start gap, IsBlank gap → ∃ run, part run element ∧ spread run = gap ++ text ∧
    ∀ follow, IsDelimited follow → Scans start run follow

@[simp] theorem separated_nil : separated [] = [] := rfl

@[simp] theorem separated_singleton (piece : List Char) : separated [piece] = piece := by
  simp [separated, List.intercalate]

@[simp] theorem separated_cons_cons (piece next : List Char) (rest : List (List Char)) :
    separated (piece :: next :: rest) = piece ++ ',' :: ' ' :: separated (next :: rest) := by
  simp [separated, List.intercalate]

theorem scans_singleton {token : Token} {start : Nat} {follow : List Char} :
    Scans start [token] follow ↔ token.IsReadAt start follow := by
  simp [Scans]

/-- A token in front of which a run of tokens ends. -/
theorem isDelimited_punctAt {c : Char} (hc : IsDelimiter c) (start : Nat) (rest : List Token)
    (follow : List Char) : IsDelimited (spread (punctAt c start [] :: rest) ++ follow) := by
  intro d hd
  cases hd
  exact hc

/-- Elements that can be rendered make up a list that is read up to its closing bracket. -/
theorem exists_isListing {α : Type} {close : Char} {part : List Token → α → Prop}
    {print : α → List Char} {elements : List α} (hclose : IsSeparator close)
    (hdelimiter : IsDelimiter close)
    (helements : ∀ element ∈ elements, IsRendered part (print element) element) (start : Nat)
    {gap : List Char} (hgap : IsBlank gap) :
    ∃ used, IsListing close part used elements ∧
      spread used = gap ++ (separated (elements.map print) ++ [close]) ∧
      ∀ follow, Scans start used follow := by
  induction elements generalizing start gap with
  | nil =>
      refine ⟨[punctAt close start gap], .close (isPunct_punctAt _ _ _), by simp [punctAt], ?_⟩
      intro follow
      exact scans_singleton.2 (isReadAt_punctAt hclose hgap start follow)
  | cons element rest ih =>
      obtain ⟨run, hpart, hspread, hscans⟩ := helements element List.mem_cons_self start gap hgap
      have hrest : ∀ other ∈ rest, IsRendered part (print other) other :=
        fun other hother => helements other (List.mem_cons_of_mem element hother)
      cases rest with
      | nil =>
          refine ⟨run ++ [punctAt close (start + byteLength (spread run)) []],
            .last hpart (isPunct_punctAt _ _ _), by simp [hspread, punctAt], ?_⟩
          intro follow
          rw [scans_append_iff, scans_singleton]
          exact ⟨hscans _ (isDelimited_punctAt hdelimiter _ [] follow),
            isReadAt_punctAt hclose isBlank_nil _ follow⟩
      | cons next others =>
          have hcomma : IsSeparator ',' := by decide +kernel
          have hstop : IsDelimiter ',' := by decide +kernel
          let comma := punctAt ',' (start + byteLength (spread run)) []
          obtain ⟨used, hused, htext, hread⟩ := ih hrest comma.stop isBlank_space
          refine ⟨run ++ comma :: used, .more hpart (isPunct_punctAt _ _ _) hused, ?_, ?_⟩
          · simp only [List.map_cons, separated_cons_cons, spread_append, spread_cons, hspread,
              htext]
            simp [comma, punctAt]
          · intro follow
            rw [scans_append_iff]
            exact ⟨hscans _ (isDelimited_punctAt hstop _ used follow),
              isReadAt_punctAt hcomma isBlank_nil _ _, hread follow⟩

theorem IsLiteral.isItem {run : List Token} {value : Value} (h : IsLiteral run value) :
    IsItem run value :=
  ⟨h.isValueRun, (runValue_of_isLiteral h).symm⟩

/-- A literal of one token is rendered by the text of the token. -/
theorem isRendered_of_token {kind : TokenKind} {text : List Char} {value : Value}
    (hread : ∀ start gap follow, IsBlank gap → IsDelimited follow →
      (tokenAt kind text start gap).IsReadAt start follow)
    (hliteral : ∀ start gap, IsLiteral [tokenAt kind text start gap] value) :
    IsRendered IsItem text value := by
  intro start gap hgap
  refine ⟨[tokenAt kind text start gap], (hliteral start gap).isItem, by simp, ?_⟩
  intro follow hfollow
  exact scans_singleton.2 (hread start gap follow hgap hfollow)

/-- A literal between brackets is rendered when its elements are. -/
theorem isRendered_of_listing {α : Type} {bracket close : Char} {part : List Token → α → Prop}
    {print : α → List Char} {elements : List α} {value : Value} (hbracket : IsSeparator bracket)
    (hclose : IsSeparator close) (hdelimiter : IsDelimiter close)
    (helements : ∀ element ∈ elements, IsRendered part (print element) element)
    (hliteral : ∀ {token : Token} {inside}, token.isPunct bracket = true →
      IsListing close part inside elements → IsLiteral (token :: inside) value) :
    IsRendered IsItem (bracket :: (separated (elements.map print) ++ [close])) value := by
  intro start gap hgap
  let token := punctAt bracket start gap
  obtain ⟨used, hused, htext, hscans⟩ :=
    exists_isListing hclose hdelimiter helements token.stop isBlank_nil
  refine ⟨token :: used, (hliteral (isPunct_punctAt _ _ _) hused).isItem, ?_, ?_⟩
  · simp [htext, token, punctAt]
  · intro follow _
    exact ⟨isReadAt_punctAt hbracket hgap start _, hscans follow⟩

/-- The tokens of a value render what they denote by their own text. -/
theorem isRendered_runText {run : List Token} {start : Nat} {follow : List Char}
    (hscans : Scans start run follow) (hrun : IsValueRun run) :
    IsRendered IsItem (runText run) (runValue run) := by
  cases run with
  | nil => exact absurd rfl hrun.nonempty
  | cons token rest =>
      intro start' gap hgap
      let first := tokenAt token.kind token.text start' gap
      have hplaced : SameTokens rest (place first.stop rest) :=
        (map_unplaced_place first.stop rest).symm
      have hfirst : IsValueRun (first :: rest) :=
        isValueRun_iff.2 ⟨List.cons_ne_nil first rest, (isValueRun_iff.1 hrun).2⟩
      have hsame : SameTokens (first :: rest) (first :: place first.stop rest) :=
        sameTokens_cons_iff.2 ⟨first, _, rfl, rfl, hplaced⟩
      refine ⟨first :: place first.stop rest, ⟨hsame.isValueRun hfirst, ?_⟩, ?_, ?_⟩
      · exact runValue_cons_congr rfl rfl hplaced
      · rw [spread_cons, spread_place]
        simp [first, runText, spread]
      · intro other hother
        have hread := hscans.of_isDelimited hother
        refine ⟨?_, hread.2.place _⟩
        rw [spread_place]
        exact hread.1.move hgap start'

/-- An entry is rendered when its value is. -/
theorem isRendered_entry {entry : String × Value}
    (hvalue : IsRendered IsItem entry.2.print entry.2) :
    IsRendered IsEntry (printEntry entry) entry := by
  intro start gap hgap
  have hcolon : IsSeparator ':' := by decide +kernel
  let key := tokenAt (.string entry.1) (quotation entry.1) start gap
  let colon := punctAt ':' key.stop []
  obtain ⟨inside, hitem, htext, hscans⟩ := hvalue colon.stop [' '] isBlank_space
  refine ⟨key :: colon :: inside, ⟨key, colon, inside, rfl, rfl, isPunct_punctAt _ _ _, hitem⟩,
    ?_, ?_⟩
  · simp [htext, key, colon, punctAt, printEntry]
  · intro follow hfollow
    exact ⟨isReadAt_quotation entry.1 hgap start _, isReadAt_punctAt hcolon isBlank_nil _ _,
      hscans follow hfollow⟩

/-! ### What has been read can be rendered -/

/-- The elements of a list that is read from a text are read from it too. -/
theorem IsListing.exists_scans {α : Type} {close : Char} {part : List Token → α → Prop}
    {used : List Token} {elements : List α} (h : IsListing close part used elements)
    {start : Nat} {follow : List Char} (hscans : Scans start used follow) :
    ∀ element ∈ elements, ∃ run start' follow', part run element ∧
      Scans start' run follow' ∧ run.length < used.length := by
  induction h generalizing start with
  | close _ => simp
  | @last run element token hpart _ =>
      intro other hother
      obtain rfl := List.mem_singleton.1 hother
      exact ⟨run, _, _, hpart, (scans_append_iff.1 hscans).1, by simp⟩
  | @more run element comma rest elements hpart _ _ ih =>
      obtain ⟨hrun, -, hrest⟩ := scans_append_iff.1 hscans
      intro other hother
      rcases List.mem_cons.1 hother with rfl | hmem
      · refine ⟨run, _, _, hpart, hrun, ?_⟩
        simp only [List.length_append, List.length_cons]
        omega
      · obtain ⟨run', start', follow', hpart', hscans', hlt⟩ := ih hrest other hmem
        refine ⟨run', start', follow', hpart', hscans', ?_⟩
        simp only [List.length_append, List.length_cons]
        omega

/-- The arguments of a call that is read from a text are read from it too. -/
theorem CallForm.Spells.exists_scans {form : CallForm} {tokens : List Token}
    (h : form.Spells tokens) {start : Nat} {follow : List Char} (hscans : Scans start tokens follow)
    {runs : List (List Token)} (hruns : form.arguments = some runs) :
    ∀ run ∈ runs, IsValueRun run ∧ ∃ start' follow', Scans start' run follow' := by
  obtain ⟨name, used, rfl, -, -, hused⟩ := h
  rw [hruns] at hused
  obtain ⟨parenthesis, inside, rfl, -, hlisting⟩ := hused
  have hinside := (scans_append_iff.1 hscans.2).2.2
  intro run hrun
  obtain ⟨_, start', follow', ⟨hvalue, rfl⟩, hread, -⟩ := hlisting.exists_scans hinside run hrun
  exact ⟨hvalue, start', follow', hread⟩

/-- The members of an expression that is read from a text are read from it too. -/
theorem SpellsChain.exists_scans {forms : List CallForm} {tokens : List Token}
    (h : SpellsChain forms tokens) {start : Nat} {follow : List Char}
    (hscans : Scans start tokens follow) :
    ∀ form ∈ forms, ∃ member start' follow', form.Spells member ∧ Scans start' member follow' := by
  induction h generalizing start with
  | nil => simp
  | cons hpoint hmember _ ih =>
      obtain ⟨hfirst, hrest⟩ := scans_append_iff.1 hscans.2
      intro form hform
      rcases List.mem_cons.1 hform with rfl | hmem
      · exact ⟨_, _, _, hmember, hfirst⟩
      · exact ih hrest form hmem

theorem print_wordValue (name : String) : (wordValue name).print = name.toList := by
  unfold wordValue
  split
  · rename_i h
    rw [h]
    rfl
  · split
    · rename_i h
      rw [h]
      rfl
    · rfl

/-- The token of a name is rendered by the name. -/
theorem Token.IsReadAt.isReadAt_name {token : Token} {start : Nat} {follow other gap : List Char}
    {name : String} (h : token.IsReadAt start follow) (hkind : token.kind = .ident name)
    (hgap : IsBlank gap) (hother : IsDelimited other) (start' : Nat) :
    (tokenAt (.ident name) name.toList start' gap).IsReadAt start' other := by
  have hmoved := (h.congr hother.mayFollow).move hgap start'
  rwa [hkind, h.text_of_ident hkind] at hmoved

theorem isRendered_negative {token : Token} {literal : String} {start : Nat} {follow : List Char}
    (h : token.IsReadAt start follow) (hkind : token.kind = .number literal) :
    IsRendered IsItem (Value.number ("-" ++ literal)).print (.number ("-" ++ literal)) := by
  intro start' gap hgap
  have hseparator : IsSeparator '-' := by decide +kernel
  let minus := punctAt '-' start' gap
  let number := tokenAt (.number literal) literal.toList minus.stop []
  have hliteral : IsLiteral [minus, number] (.number ("-" ++ literal)) :=
    .negative (isPunct_punctAt _ _ _) rfl
  refine ⟨[minus, number], hliteral.isItem, ?_, ?_⟩
  · simp [minus, number, punctAt, Value.print, String.toList_append]
  · intro other hother
    have hnumber := h.isReadAt_literal hkind isBlank_nil hother minus.stop
    exact ⟨isReadAt_punctAt hseparator hgap start' _, scans_singleton.2 hnumber⟩

/-- The printed text of a value that was read is read as that value. -/
theorem isRendered_of_isItem {run : List Token} {start : Nat} {follow : List Char} {value : Value}
    (hscans : Scans start run follow) (hitem : IsItem run value) :
    IsRendered IsItem value.print value := by
  induction hlength : run.length using Nat.strongRecOn
    generalizing run start follow value with
  | ind length ih =>
      subst hlength
      obtain ⟨hrun, hvalue⟩ := hitem
      rcases isLiteral_or_verbatim run with hliteral | ⟨-, hverbatim⟩
      · rw [← hvalue] at hliteral
        cases hliteral with
        | string _ =>
            apply isRendered_of_token
            · intro start gap follow hgap _
              exact isReadAt_quotation _ hgap start follow
            · intro start gap
              exact .string rfl
        | number h =>
            have hread := scans_singleton.1 hscans
            apply isRendered_of_token
            · intro start gap follow hgap hfollow
              exact hread.isReadAt_literal h hgap hfollow start
            · intro start gap
              exact .number rfl
        | word h =>
            have hread := scans_singleton.1 hscans
            rw [print_wordValue]
            apply isRendered_of_token
            · intro start gap follow hgap hfollow
              exact hread.isReadAt_name h hgap hfollow start
            · intro start gap
              exact .word rfl
        | negative _ h => exact isRendered_negative (scans_singleton.1 hscans.2) h
        | @object brace inside entries hbrace h =>
            have hentries : ∀ entry ∈ entries, IsRendered IsEntry (printEntry entry) entry := by
              intro entry hentry
              obtain ⟨run, start', follow', ⟨key, colon, inner, rfl, -, -, hinner⟩, hread, hlt⟩ :=
                h.exists_scans hscans.2 entry hentry
              have hshorter : inner.length < (brace :: inside).length := by
                simp only [List.length_cons] at hlt ⊢
                omega
              apply isRendered_entry
              exact ih inner.length hshorter hread.2.2 hinner rfl
            rw [Value.print, printEntries_eq_map]
            apply isRendered_of_listing (by decide +kernel) (by decide +kernel) (by decide +kernel)
              hentries
            exact .object
        | @array bracket inside items hbracket h =>
            have hitems : ∀ item ∈ items, IsRendered IsItem item.print item := by
              intro item hitem
              obtain ⟨inner, start', follow', hinner, hread, hlt⟩ :=
                h.exists_scans hscans.2 item hitem
              exact ih inner.length (Nat.lt_succ_of_lt hlt) hread hinner rfl
            rw [Value.print, printItems_eq_map]
            apply isRendered_of_listing (by decide +kernel) (by decide +kernel) (by decide +kernel)
              hitems
            exact .array
      · have hrendered := isRendered_runText hscans hrun
        rw [← hvalue] at hrendered
        rw [hverbatim] at hvalue
        subst hvalue
        rwa [Value.print, String.toList_ofList]

end TableModels.Column
