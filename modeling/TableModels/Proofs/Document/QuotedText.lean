import TableModels.Document.Emission
import TableModels.Enumeration.Registry

/-!
# Texts of the source inside literals

A document carries two kinds of source text between quotes: the enumeration values that are no
identifiers, and the names of the tables. Attributes and indexes write every quote and every
backslash of a string behind a backslash. Value lines do so with quotes only, and table lines with
nothing. `literals_read_back_iff` says for which texts the literal can still be read back.

## Implementation notes

The three ways of writing differ in the characters that get a backslash. `escapeBy` has these
characters as a parameter, so that one theorem tells what each of them loses.
-/

namespace TableModels.Text.QuotedLiteral

/-- The characters that a reader of literals does not take for themselves. -/
def isSpecial (c : Char) : Bool :=
  c == '\\' || c == '"'

/-- A text in which a backslash stands before each character that is marked. -/
def escapeBy (marked : Char → Bool) (text : List Char) : List Char :=
  text.flatMap fun c => if marked c then ['\\', c] else [c]

theorem escapeBy_cons_of_marked {marked : Char → Bool} {c : Char} (h : marked c = true)
    (rest : List Char) : escapeBy marked (c :: rest) = '\\' :: c :: escapeBy marked rest := by
  simp [escapeBy, h]

theorem escapeBy_cons_of_unmarked {marked : Char → Bool} {c : Char} (h : marked c = false)
    (rest : List Char) : escapeBy marked (c :: rest) = c :: escapeBy marked rest := by
  simp [escapeBy, h]

theorem escapeBy_quote (text : List Char) : escapeBy (· == '"') text = escapeQuotes text := by
  induction text with
  | nil => rfl
  | cons c rest ih =>
      rw [escapeQuotes, ← ih]
      by_cases h : c = '"' <;> simp [escapeBy, h]

theorem escapeBy_none (text : List Char) : escapeBy (fun _ => false) text = text := by
  induction text with
  | nil => rfl
  | cons c rest ih => rw [escapeBy_cons_of_unmarked rfl, ih]

theorem escapeBy_eq_nil_iff {marked : Char → Bool} {text : List Char} :
    escapeBy marked text = [] ↔ text = [] := by
  cases text with
  | nil => simp [escapeBy]
  | cons c text => cases hc : marked c <;> simp [escapeBy, hc]

/-- A marked character begins nothing that is written. -/
theorem escapeBy_ne_cons_of_marked {marked : Char → Bool} {c : Char} (h : marked c = true)
    (hbackslash : c ≠ '\\') (text rest : List Char) : escapeBy marked text ≠ c :: rest := by
  intro heq
  cases text with
  | nil => cases heq
  | cons d text =>
      cases hd : marked d with
      | true =>
          rw [escapeBy_cons_of_marked hd] at heq
          exact hbackslash (List.cons.inj heq).1.symm
      | false =>
          rw [escapeBy_cons_of_unmarked hd] at heq
          rw [(List.cons.inj heq).1, h] at hd
          cases hd

/-- A text is told from what is written for it, whatever is marked. -/
theorem escapeBy_injective (marked : Char → Bool) : Function.Injective (escapeBy marked) := by
  -- a marked character stands behind a backslash, and nowhere else behind an unmarked backslash
  have hmixed : ∀ c d text other, marked c = true → marked d = false →
      escapeBy marked (c :: text) ≠ escapeBy marked (d :: other) := by
    intro c d text other hc hd heq
    rw [escapeBy_cons_of_marked hc, escapeBy_cons_of_unmarked hd] at heq
    obtain ⟨rfl, hrest⟩ := List.cons.inj heq
    apply escapeBy_ne_cons_of_marked hc _ other _ hrest.symm
    rintro rfl
    rw [hc] at hd
    cases hd
  intro text
  induction text with
  | nil =>
      intro other heq
      exact (escapeBy_eq_nil_iff.1 heq.symm).symm
  | cons c text ih =>
      intro other heq
      cases other with
      | nil => cases escapeBy_eq_nil_iff.1 heq
      | cons d other =>
          cases hc : marked c <;> cases hd : marked d
          case true.true =>
            rw [escapeBy_cons_of_marked hc, escapeBy_cons_of_marked hd] at heq
            obtain ⟨rfl, hrest⟩ := List.cons.inj (List.cons.inj heq).2
            rw [ih hrest]
          case false.false =>
            rw [escapeBy_cons_of_unmarked hc, escapeBy_cons_of_unmarked hd] at heq
            obtain ⟨rfl, hrest⟩ := List.cons.inj heq
            rw [ih hrest]
          case true.false => exact absurd heq (hmixed c d text other hc hd)
          case false.true => exact absurd heq.symm (hmixed d c other text hd hc)

/-! ### One step of the reader -/

theorem isSpecial_eq_true_iff {c : Char} : isSpecial c = true ↔ c = '\\' ∨ c = '"' := by
  simp [isSpecial]

theorem read_quote_eq_some_iff {rest value later : List Char} :
    read ('"' :: rest) = some (value, later) ↔ value = [] ∧ rest = later := by
  simp [read, eq_comm]

theorem map_cons_eq_some_iff {c : Char} {result : Option (List Char × List Char)}
    {value later : List Char} :
    (result.map fun (inner, last) => (c :: inner, last)) = some (value, later) ↔
      ∃ inner, value = c :: inner ∧ result = some (inner, later) := by
  constructor
  · intro h
    obtain ⟨⟨inner, last⟩, hresult, heq⟩ := Option.map_eq_some_iff.1 h
    cases heq
    exact ⟨inner, rfl, hresult⟩
  · rintro ⟨inner, rfl, rfl⟩
    rfl

/-- A backslash takes the character behind it. -/
theorem read_backslash_eq_some_iff {c : Char} {rest value later : List Char} :
    read ('\\' :: c :: rest) = some (value, later) ↔
      ∃ inner, value = c :: inner ∧ read rest = some (inner, later) := by
  rw [read]
  exact map_cons_eq_some_iff

theorem read_plain_eq_some_iff {c : Char} (h : isSpecial c = false)
    {rest value later : List Char} :
    read (c :: rest) = some (value, later) ↔
      ∃ inner, value = c :: inner ∧ read rest = some (inner, later) := by
  simp only [isSpecial, Bool.or_eq_false_iff, beq_eq_false_iff_ne] at h
  rw [read]
  · exact map_cons_eq_some_iff
  · exact h.2
  · intro _ _ hc
    exact absurd hc h.1

/-- What is read leaves less than there was. -/
theorem length_lt_of_read {text value later : List Char} (h : read text = some (value, later)) :
    later.length < text.length := by
  fun_induction read text generalizing value with
  | case1 => cases h
  | case2 rest =>
      cases h
      simp
  | case3 c rest ih =>
      obtain ⟨inner, -, hinner⟩ := map_cons_eq_some_iff.1 h
      have := ih hinner
      simp only [List.length_cons]
      omega
  | case4 c rest _ _ ih =>
      obtain ⟨inner, -, hinner⟩ := map_cons_eq_some_iff.1 h
      have := ih hinner
      simp only [List.length_cons]
      omega

/-! ### Reading back -/

variable {marked : Char → Bool}

/-- Up to the quote behind it a text is never read as a longer one, neither from its beginning nor
from behind a backslash, which would take its first character. -/
theorem length_le_of_read_escapeBy (hmarked : ∀ c, marked c = true → isSpecial c = true)
    {later : List Char} (text : List Char) :
    (∀ value, read (escapeBy marked text ++ '"' :: later) = some (value, later) →
        value.length ≤ text.length) ∧
      ∀ value, read ('\\' :: (escapeBy marked text ++ '"' :: later)) = some (value, later) →
        value.length ≤ text.length + 1 := by
  induction text with
  | nil =>
      constructor
      · intro value h
        cases h
        exact Nat.zero_le _
      · intro value h
        obtain ⟨inner, rfl, hinner⟩ := read_backslash_eq_some_iff.1 h
        exact absurd (length_lt_of_read hinner) (Nat.lt_irrefl _)
  | cons c rest ih =>
      obtain ⟨ihplain, ihbehind⟩ := ih
      cases hc : marked c with
      | true =>
          rw [escapeBy_cons_of_marked hc]
          constructor
          · intro value h
            obtain ⟨inner, rfl, hinner⟩ := read_backslash_eq_some_iff.1 h
            exact Nat.succ_le_succ (ihplain inner hinner)
          · -- the backslash takes the one that marks, and the character stands alone
            intro value h
            obtain ⟨inner, rfl, hinner⟩ := read_backslash_eq_some_iff.1 h
            obtain rfl | rfl := isSpecial_eq_true_iff.1 (hmarked c hc)
            · exact Nat.succ_le_succ (ihbehind inner hinner)
            · obtain ⟨rfl, -⟩ := read_quote_eq_some_iff.1 hinner
              simp
      | false =>
          rw [escapeBy_cons_of_unmarked hc]
          constructor
          · intro value h
            by_cases hspecial : isSpecial c = true
            · obtain rfl | rfl := isSpecial_eq_true_iff.1 hspecial
              · exact ihbehind value h
              · obtain ⟨rfl, -⟩ := read_quote_eq_some_iff.1 h
                exact Nat.zero_le _
            · obtain ⟨inner, rfl, hinner⟩ :=
                (read_plain_eq_some_iff (Bool.eq_false_iff.2 hspecial)).1 h
              exact Nat.succ_le_succ (ihplain inner hinner)
          · intro value h
            obtain ⟨inner, rfl, hinner⟩ := read_backslash_eq_some_iff.1 h
            exact Nat.le_succ_of_le (Nat.succ_le_succ (ihplain inner hinner))

/-- A backslash that is not marked is not read back: it takes the character behind it. -/
theorem read_backslash_ne (hmarked : ∀ c, marked c = true → isSpecial c = true)
    (hbackslash : marked '\\' = false) (text later : List Char) :
    read ('\\' :: (escapeBy marked text ++ '"' :: later)) ≠ some ('\\' :: text, later) := by
  intro h
  cases text with
  | nil =>
      obtain ⟨inner, hvalue, -⟩ := read_backslash_eq_some_iff.1 h
      cases hvalue
  | cons c rest =>
      cases hc : marked c with
      | true =>
          rw [escapeBy_cons_of_marked hc] at h
          obtain ⟨inner, hvalue, hinner⟩ := read_backslash_eq_some_iff.1 h
          cases hvalue
          obtain rfl | rfl := isSpecial_eq_true_iff.1 (hmarked c hc)
          · rw [hbackslash] at hc
            cases hc
          · obtain ⟨hempty, -⟩ := read_quote_eq_some_iff.1 hinner
            cases hempty
      | false =>
          rw [escapeBy_cons_of_unmarked hc] at h
          obtain ⟨inner, hvalue, hinner⟩ := read_backslash_eq_some_iff.1 h
          cases hvalue
          have hlength := (length_le_of_read_escapeBy hmarked rest).1 _ hinner
          exact absurd hlength (Nat.not_succ_le_self _)

/-- A text is read back exactly when each of its special characters is marked. -/
theorem read_escapeBy_iff (hmarked : ∀ c, marked c = true → isSpecial c = true)
    {text later : List Char} :
    read (escapeBy marked text ++ '"' :: later) = some (text, later) ↔
      ∀ c ∈ text, isSpecial c = true → marked c = true := by
  induction text with
  | nil =>
      constructor
      · intro _ c hc
        cases hc
      · intro _
        rfl
  | cons c rest ih =>
      rw [List.forall_mem_cons, ← ih]
      cases hc : marked c with
      | true =>
          rw [escapeBy_cons_of_marked hc, List.cons_append, List.cons_append,
            read_backslash_eq_some_iff]
          simp
      | false =>
          rw [escapeBy_cons_of_unmarked hc, List.cons_append]
          by_cases hspecial : isSpecial c = true
          · -- the literal ends here, or the backslash takes another character
            have hnot : read (c :: (escapeBy marked rest ++ '"' :: later)) ≠
                some (c :: rest, later) := by
              obtain rfl | rfl := isSpecial_eq_true_iff.1 hspecial
              · exact read_backslash_ne hmarked hc rest later
              · intro h
                obtain ⟨hempty, -⟩ := read_quote_eq_some_iff.1 h
                cases hempty
            simp [hnot, hspecial]
          · rw [read_plain_eq_some_iff (Bool.eq_false_iff.2 hspecial)]
            simp [hspecial]

end TableModels.Text.QuotedLiteral

namespace TableModels.Document

open Text.QuotedLiteral

/-- The string of the first literal of a text, with the text behind the literal. -/
def firstLiteral? (text : List Char) : Option (List Char × List Char) :=
  match text.dropWhile (· != '"') with
  | [] => none
  | _ :: opened => read opened

theorem firstLiteral?_append {before : List Char} (h : '"' ∉ before) (opened : List Char) :
    firstLiteral? (before ++ '"' :: opened) = read opened := by
  have hbefore : ∀ c ∈ before, (c != '"') = true := by
    intro c hc
    apply bne_iff_ne.2
    rintro rfl
    exact h hc
  rw [firstLiteral?, List.dropWhile_append_of_pos hbefore]
  simp

/-- A line of the document with the text of the source that it carries between quotes. -/
structure CarriedText where
  line : String
  text : String

/-- The first literal of the line stands for the text, and ends at the quote before the parenthesis
that closes the line. -/
def CarriedText.ReadsBack (carried : CarriedText) : Prop :=
  firstLiteral? carried.line.toList = some (carried.text.toList, [')'])

instance (carried : CarriedText) : Decidable carried.ReadsBack :=
  inferInstanceAs (Decidable (firstLiteral? carried.line.toList = some (carried.text.toList, [')'])))

/-- The texts of the source in the enumeration blocks and in the model blocks. -/
def carriedTexts (enums : List EnumDeclaration) (models : List ModelDeclaration) :
    List CarriedText :=
  (enums.flatMap fun declaration =>
    (declaration.values.filter fun value => !isIdentifier value).map fun value =>
      ⟨valueLine value, value⟩)
    ++ models.map fun model => ⟨tableLine model.tableName, model.tableName⟩

theorem forall_carriedTexts {enums : List EnumDeclaration} {models : List ModelDeclaration}
    {P : CarriedText → Prop} :
    (∀ carried ∈ carriedTexts enums models, P carried) ↔
      (∀ declaration ∈ enums, ∀ value ∈ declaration.values, isIdentifier value = false →
          P ⟨valueLine value, value⟩) ∧
        ∀ model ∈ models, P ⟨tableLine model.tableName, model.tableName⟩ := by
  simp only [carriedTexts, List.forall_mem_append, List.forall_mem_flatMap, List.forall_mem_map,
    List.mem_filter, Bool.not_eq_true', and_imp]

theorem mem_lines_of_mem_enumLines (header : Header) (width : Nat) {enums : List EnumDeclaration}
    (models : List ModelDeclaration) (excludedCount : Nat) {declaration : EnumDeclaration}
    (hdeclaration : declaration ∈ enums) {line : String} (h : line ∈ enumLines declaration) :
    line ∈ lines header width enums models excludedCount := by
  have hblock : line ∈ enums.flatMap fun each => "" :: enumLines each :=
    List.mem_flatMap.2 ⟨declaration, hdeclaration, List.mem_cons_of_mem _ h⟩
  simp only [lines, List.mem_append]
  exact Or.inl (Or.inl (Or.inr hblock))

theorem mem_lines_of_mem_modelLines (header : Header) (width : Nat) (enums : List EnumDeclaration)
    {models : List ModelDeclaration} (excludedCount : Nat) {model : ModelDeclaration}
    (hmodel : model ∈ models) {line : String} (h : line ∈ modelLines width model) :
    line ∈ lines header width enums models excludedCount := by
  have hblock : line ∈ models.flatMap fun each => "" :: modelLines width each :=
    List.mem_flatMap.2 ⟨model, hmodel, List.mem_cons_of_mem _ h⟩
  simp only [lines, List.mem_append]
  exact Or.inr hblock

/-- Every text that is carried stands in a line of the document. -/
theorem line_mem_lines (header : Header) (width : Nat) {enums : List EnumDeclaration}
    {models : List ModelDeclaration} (excludedCount : Nat) :
    ∀ carried ∈ carriedTexts enums models,
      carried.line ∈ lines header width enums models excludedCount := by
  let inLines (carried : CarriedText) : Prop :=
    carried.line ∈ lines header width enums models excludedCount
  apply (forall_carriedTexts (P := inLines)).2
  constructor
  · intro declaration hdeclaration value hvalue _
    apply mem_lines_of_mem_enumLines header width models excludedCount hdeclaration
    simp [enumLines, List.mem_map_of_mem hvalue]
  · intro model hmodel
    apply mem_lines_of_mem_modelLines header width enums excludedCount hmodel
    simp [modelLines]

theorem quote_notMem_memberName (value : String) : '"' ∉ (memberName value).toList := by
  intro hmem
  have hrest := isIdentifierRest_of_isIdentifier (isIdentifier_memberName value) _ hmem
  exact absurd hrest (by decide)

/-- The literal of a value that is no identifier is read back unless it contains a backslash. -/
theorem readsBack_valueLine_iff {value : String} (h : isIdentifier value = false) :
    CarriedText.ReadsBack ⟨valueLine value, value⟩ ↔ '\\' ∉ value.toList := by
  have hline : (valueLine value).toList = ("  ".toList ++ (memberName value).toList
      ++ " @map(".toList) ++ '"' :: (escapeBy (· == '"') value.toList ++ '"' :: [')']) := by
    rw [escapeBy_quote]
    simp [valueLine, h]
  have hquote : '"' ∉ "  ".toList ++ (memberName value).toList ++ " @map(".toList := by
    simp [quote_notMem_memberName]
  rw [CarriedText.ReadsBack, hline, firstLiteral?_append hquote,
    read_escapeBy_iff (by simp [isSpecial])]
  constructor
  · intro hmarked hmem
    exact absurd (hmarked '\\' hmem rfl) (by decide)
  · intro hnot c hc hspecial
    obtain rfl | rfl := isSpecial_eq_true_iff.1 hspecial
    · exact absurd hc hnot
    · rfl

/-- The literal of a table name is read back when it contains neither backslash nor quote. -/
theorem readsBack_tableLine_iff {tableName : String} :
    CarriedText.ReadsBack ⟨tableLine tableName, tableName⟩ ↔
      ∀ c ∈ tableName.toList, isSpecial c = false := by
  have hline : (tableLine tableName).toList = "  @@map(".toList ++
      '"' :: (escapeBy (fun _ => false) tableName.toList ++ '"' :: [')']) := by
    rw [escapeBy_none]
    simp [tableLine]
  rw [CarriedText.ReadsBack, hline, firstLiteral?_append (by decide),
    read_escapeBy_iff (by simp)]
  simp

/-- The texts of the source in a document are read back when its values that are no identifiers
contain no backslash and its table names contain neither backslash nor quote, and in no other
case. -/
theorem literals_read_back_iff (header : Header) (width : Nat) (enums : List EnumDeclaration)
    (models : List ModelDeclaration) (excludedCount : Nat) :
    (∀ carried ∈ carriedTexts enums models,
        carried.line ∈ lines header width enums models excludedCount ∧ carried.ReadsBack) ↔
      (∀ declaration ∈ enums, ∀ value ∈ declaration.values, isIdentifier value = false →
          '\\' ∉ value.toList) ∧
        ∀ model ∈ models, ∀ c ∈ model.tableName.toList, isSpecial c = false := by
  have hlines : (∀ carried ∈ carriedTexts enums models,
      carried.line ∈ lines header width enums models excludedCount ∧ carried.ReadsBack) ↔
        ∀ carried ∈ carriedTexts enums models, carried.ReadsBack := by
    constructor
    · intro h carried hcarried
      exact (h carried hcarried).2
    · intro h carried hcarried
      exact ⟨line_mem_lines header width excludedCount carried hcarried, h carried hcarried⟩
  rw [hlines, forall_carriedTexts]
  constructor
  · rintro ⟨hvalues, htables⟩
    constructor
    · intro declaration hdeclaration value hvalue hident
      exact (readsBack_valueLine_iff hident).1 (hvalues declaration hdeclaration value hvalue hident)
    · intro model hmodel
      exact readsBack_tableLine_iff.1 (htables model hmodel)
  · rintro ⟨hvalues, htables⟩
    constructor
    · intro declaration hdeclaration value hvalue hident
      exact (readsBack_valueLine_iff hident).2 (hvalues declaration hdeclaration value hvalue hident)
    · intro model hmodel
      exact readsBack_tableLine_iff.2 (htables model hmodel)

/-- A value that ends in a backslash and a table name with a quote in it are not read back: the
first literal does not end, the second one ends too early. -/
theorem literals_lost :
    ∃ registry, (EnumRegistry.empty .error).register "kind" ["a\\"] = .ok (registry, "Kind") ∧
      carriedTexts registry.entries [⟨"Users", "users", "a\"b", [], []⟩] =
        [⟨valueLine "a\\", "a\\"⟩, ⟨tableLine "a\"b", "a\"b"⟩] ∧
      firstLiteral? (valueLine "a\\").toList = none ∧
      firstLiteral? (tableLine "a\"b").toList = some (['a'], "b\")".toList) ∧
      ∀ carried ∈ carriedTexts registry.entries [⟨"Users", "users", "a\"b", [], []⟩],
        ¬ carried.ReadsBack := by
  refine ⟨⟨.error, [⟨"Kind", ["a\\"]⟩], []⟩, by rfl, by rfl, by rfl, by rfl, ?_⟩
  decide +kernel

end TableModels.Document
