import TableModels.Proofs.Column.Denotation

/-!
# Reading a literal first

A value can be read in another order: try a literal at the head of the tokens, keep it if a value
may end behind it, and otherwise go back and take the run of tokens up to the next place at which
a value may end. The literal reader checks which kind of bracket closes which, and it may fail deep
inside of brackets; the run does not look at the kinds. `Backtracks` says that four readers call one
another in this way. There is one such family, and it reads values as `valueAhead?` does: behind
the same tokens, whichever way was taken.

## Implementation notes

A literal is a value run (`IsLiteral.isValueRun`), so where it ends at all the count of brackets
ends too. That the family is unique is proved by induction on the number of tokens, for the four
readers together: a list hands its own tokens to the reader of values, and that hands fewer tokens
to a list again.
-/

namespace TableModels.Column

/-- The text up to the next place at which a value may end, as a value, and the tokens from there
on. -/
def verbatimAhead? (tokens : List Token) : Option (Value × List Token) :=
  match valueRun 0 tokens with
  | ([], _) => none
  | (first :: run, later) => some (.verbatim (String.ofList (runText (first :: run))), later)

/-- The literal at the head of the tokens, where entries and items have readers of their own, and
the tokens behind it. -/
def literalBy (entries? : List Token → Option (List (String × Value) × List Token))
    (items? : List Token → Option (List Value × List Token)) :
    List Token → Option (Value × List Token)
  | [] => none
  | token :: rest =>
      match token.kind with
      | .string value => some (.string value, rest)
      | .number literal => some (.number literal, rest)
      | .ident name => some (wordValue name, rest)
      | .punct '-' =>
          match rest with
          | ⟨.number literal, _, _, _⟩ :: later => some (.number ("-" ++ literal), later)
          | _ => none
      | .punct '\x7b' => (entries? rest).map fun (entries, later) => (.object entries, later)
      | .punct '[' => (items? rest).map fun (items, later) => (.array items, later)
      | _ => none

/-- A literal behind which a value may end, or else the text up to the next such place. -/
def literalOrVerbatim (literal? : List Token → Option (Value × List Token))
    (tokens : List Token) : Option (Value × List Token) :=
  match literal? tokens with
  | some (value, later) => if endsValue later then some (value, later) else verbatimAhead? tokens
  | none => verbatimAhead? tokens

/-- Four readers that call one another and try a literal before anything else. -/
structure Backtracks (literal? value? : List Token → Option (Value × List Token))
    (entries? : List Token → Option (List (String × Value) × List Token))
    (items? : List Token → Option (List Value × List Token)) : Prop where
  literal : ∀ tokens, literal? tokens = literalBy entries? items? tokens
  value : ∀ tokens, value? tokens = literalOrVerbatim literal? tokens
  entries : ∀ tokens, entries? tokens = listingStep '\x7d' (entryBy value?) entries? tokens
  items : ∀ tokens, items? tokens = listingStep ']' value? items? tokens

/-- The literal at the head of the tokens, and the tokens behind it. -/
def literalAhead? (tokens : List Token) : Option (Value × List Token) :=
  literalBy objectEntries arrayItems tokens

/-! ### Literals are value runs -/

theorem depthAfter_of_isItem {run : List Token} {value : Value} (h : IsItem run value) :
    depthAfter 0 run = some 0 :=
  (isValueRun_iff.1 h.1).2

theorem depthAfter_of_isEntry {run : List Token} {entry : String × Value}
    (h : IsEntry run entry) : depthAfter 0 run = some 0 := by
  obtain ⟨key, colon, inside, rfl, hkey, hcolon, hitem⟩ := h
  have hkeys := isPunct_eq_false_of_keyOf? hkey
  have hcolons : ∀ c, ':' ≠ c → colon.isPunct c = false :=
    fun c hne => isPunct_eq_false_of_ne hcolon hne
  simp [depthAfter, Token.opens, Token.closes, hkeys, hcolons, depthAfter_of_isItem hitem]

/-- The tokens of a literal are those of a value. -/
theorem IsLiteral.isValueRun {run : List Token} {value : Value} (h : IsLiteral run value) :
    IsValueRun run := by
  cases h with
  | string h =>
      apply isValueRun_singleton
      intro c
      simp [Token.isPunct, h]
  | number h =>
      apply isValueRun_singleton
      intro c
      simp [Token.isPunct, h]
  | word h =>
      apply isValueRun_singleton
      intro c
      simp [Token.isPunct, h]
  | negative hminus h =>
      have hkind := isPunct_eq_true_iff.1 hminus
      apply isValueRun_iff.2
      constructor
      · simp
      · simp [depthAfter, Token.opens, Token.closes, Token.isPunct, h, hkind]
  | object hbrace h =>
      have hinside := h.depthAfter_eq (fun token htoken => by simp [Token.closes, htoken])
        depthAfter_of_isEntry
      apply isValueRun_iff.2
      constructor
      · simp
      · simpa [depthAfter, Token.opens, hbrace] using hinside
  | array hbracket h =>
      have hinside := h.depthAfter_eq (fun token htoken => by simp [Token.closes, htoken])
        depthAfter_of_isItem
      apply isValueRun_iff.2
      constructor
      · simp
      · simpa [depthAfter, Token.opens, hbracket] using hinside

/-- The literal reader takes exactly the tokens of a literal. -/
theorem literalAhead?_eq_some_iff {tokens later : List Token} {value : Value} :
    literalAhead? tokens = some (value, later) ↔
      ∃ run, tokens = run ++ later ∧ IsLiteral run value := by
  constructor
  · intro h
    cases tokens with
    | nil => cases h
    | cons token rest =>
        simp only [literalAhead?, literalBy] at h
        split at h
        · rename_i hkind
          cases h
          exact ⟨[token], rfl, .string hkind⟩
        · rename_i hkind
          cases h
          exact ⟨[token], rfl, .number hkind⟩
        · rename_i hkind
          cases h
          exact ⟨[token], rfl, .word hkind⟩
        · rename_i hkind
          split at h
          · cases h
            exact ⟨[token, _], rfl, .negative (isPunct_eq_true_iff.2 hkind) rfl⟩
          · cases h
        · rename_i hkind
          obtain ⟨⟨entries, after⟩, hentries, hpair⟩ := Option.map_eq_some_iff.1 h
          cases hpair
          obtain ⟨used, rfl, hused⟩ := objectEntries_eq_some_iff.1 hentries
          exact ⟨token :: used, rfl, .object (isPunct_eq_true_iff.2 hkind) hused⟩
        · rename_i hkind
          obtain ⟨⟨items, after⟩, hitems, hpair⟩ := Option.map_eq_some_iff.1 h
          cases hpair
          obtain ⟨used, rfl, hused⟩ := arrayItems_eq_some_iff.1 hitems
          exact ⟨token :: used, rfl, .array (isPunct_eq_true_iff.2 hkind) hused⟩
        · cases h
  · rintro ⟨run, rfl, hliteral⟩
    cases hliteral with
    | string h => simp [literalAhead?, literalBy, h]
    | number h => simp [literalAhead?, literalBy, h]
    | word h => simp [literalAhead?, literalBy, h]
    | @negative minus token literal hminus h =>
        obtain ⟨kind, offset, gap, text⟩ := token
        subst h
        simp [literalAhead?, literalBy, isPunct_eq_true_iff.1 hminus]
    | @object brace inside entries hbrace h =>
        have hread : objectEntries (inside ++ later) = some (entries, later) :=
          objectEntries_eq_some_iff.2 ⟨inside, rfl, h⟩
        simp [literalAhead?, literalBy, isPunct_eq_true_iff.1 hbrace, hread]
    | @array bracket inside items hbracket h =>
        have hread : arrayItems (inside ++ later) = some (items, later) :=
          arrayItems_eq_some_iff.2 ⟨inside, rfl, h⟩
        simp [literalAhead?, literalBy, isPunct_eq_true_iff.1 hbracket, hread]

/-! ### The reader tries a literal first -/

/-- A run behind which a value may end is read as `runValue` reads it. -/
theorem valueAhead?_append {run later : List Token} (hrun : IsValueRun run)
    (hlater : endsValue later = true) :
    valueAhead? (run ++ later) = some (runValue run, later) := by
  have hread := hrun.valueRun_append hlater
  cases run with
  | nil => exact absurd rfl hrun.nonempty
  | cons first run => simp only [valueAhead?, hread]

/-- Where no literal ends at the end of a value, the value is its own text. -/
theorem valueAhead?_of_no_literal {tokens : List Token}
    (h : ∀ value later, literalAhead? tokens = some (value, later) → endsValue later = false) :
    valueAhead? tokens = verbatimAhead? tokens := by
  have happend := valueRun_append 0 tokens
  have hends := endsValue_valueRun 0 tokens
  rw [valueAhead?, verbatimAhead?]
  cases hrun : valueRun 0 tokens with
  | mk run later =>
      rw [hrun] at happend hends
      cases run with
      | nil => rfl
      | cons first run =>
          have hnone : ∀ value, ¬ IsLiteral (first :: run) value := by
            intro value hliteral
            have hread := literalAhead?_eq_some_iff.2 ⟨_, happend.symm, hliteral⟩
            rw [h value later hread] at hends
            cases hends
          simp only [runValue_of_not_isLiteral hnone]

theorem valueAhead?_eq_literalOrVerbatim (tokens : List Token) :
    valueAhead? tokens = literalOrVerbatim literalAhead? tokens := by
  rw [literalOrVerbatim]
  split
  · rename_i value later hliteral
    split
    · rename_i hends
      obtain ⟨run, rfl, hrun⟩ := literalAhead?_eq_some_iff.1 hliteral
      rw [valueAhead?_append hrun.isValueRun hends, runValue_of_isLiteral hrun]
    · rename_i hends
      apply valueAhead?_of_no_literal
      intro value' later' hread
      rw [hliteral] at hread
      cases hread
      exact Bool.not_eq_true _ ▸ hends
  · rename_i hliteral
    apply valueAhead?_of_no_literal
    intro value later hread
    rw [hliteral] at hread
    cases hread

/-- The readers of the grammar try a literal first. -/
theorem backtracks_valueAhead? :
    Backtracks literalAhead? valueAhead? objectEntries arrayItems where
  literal _ := rfl
  value := valueAhead?_eq_literalOrVerbatim
  entries := objectEntries_step
  items := arrayItems_step

/-! ### No other family of readers does -/

/-- The value at the head of the tokens is made of at least one of them. -/
theorem length_lt_of_valueAhead? {tokens later : List Token} {value : Value}
    (h : valueAhead? tokens = some (value, later)) : later.length < tokens.length := by
  have hlength := length_valueRun 0 tokens
  rw [valueAhead?] at h
  split at h
  · cases h
  · rename_i hrun
    cases h
    rw [hrun] at hlength
    simp only [List.length_cons] at hlength
    omega

theorem length_lt_of_entryBy {tokens later : List Token} {entry : String × Value}
    (h : entryBy valueAhead? tokens = some (entry, later)) : later.length < tokens.length := by
  unfold entryBy at h
  split at h
  · split at h
    · split at h
      · obtain ⟨⟨value, after⟩, hvalue, hpair⟩ := Option.map_eq_some_iff.1 h
        cases hpair
        have hlt := length_lt_of_valueAhead? hvalue
        simp only [List.length_cons]
        omega
      · cases h
    · cases h
  · cases h

/-- An entry depends on the value that may stand behind its colon. -/
theorem entryBy_congr {value₁ value₂ : List Token → Option (Value × List Token)}
    {tokens : List Token}
    (hvalue : ∀ later, later.length < tokens.length → value₁ later = value₂ later) :
    entryBy value₁ tokens = entryBy value₂ tokens := by
  match tokens with
  | [] => rfl
  | [_] => rfl
  | key :: colon :: rest =>
      have hlt : rest.length < (key :: colon :: rest).length := by
        simp only [List.length_cons]
        omega
      simp only [entryBy, hvalue rest hlt]

/-- One step of a list depends on the element at its head and on the shorter list behind it. -/
theorem listingStep_congr {α : Type} {close : Char}
    {element? other? : List Token → Option (α × List Token)}
    {read again : List Token → Option (List α × List Token)} {tokens : List Token}
    (helement : element? tokens = other? tokens)
    (hshorter : ∀ {element later}, other? tokens = some (element, later) →
      later.length < tokens.length)
    (hread : ∀ later, later.length < tokens.length → read later = again later) :
    listingStep close element? read tokens = listingStep close other? again tokens := by
  cases tokens with
  | nil => rfl
  | cons token rest =>
      simp only [listingStep, helement]
      split
      · rfl
      · split
        · rename_i element separator later hother
          have hlt := hshorter hother
          rw [List.length_cons] at hlt
          rw [hread later (Nat.lt_of_succ_lt hlt)]
        · rfl

/-- A literal depends on the lists that may stand behind its first token. -/
theorem literalBy_congr
    {entries₁ entries₂ : List Token → Option (List (String × Value) × List Token)}
    {items₁ items₂ : List Token → Option (List Value × List Token)} {tokens : List Token}
    (hentries : ∀ later, later.length < tokens.length → entries₁ later = entries₂ later)
    (hitems : ∀ later, later.length < tokens.length → items₁ later = items₂ later) :
    literalBy entries₁ items₁ tokens = literalBy entries₂ items₂ tokens := by
  cases tokens with
  | nil => rfl
  | cons token rest =>
      have hrest : rest.length < (token :: rest).length := by simp
      simp only [literalBy, hentries rest hrest, hitems rest hrest]

section Unique

variable {literal? value? : List Token → Option (Value × List Token)}
variable {entries? : List Token → Option (List (String × Value) × List Token)}
variable {items? : List Token → Option (List Value × List Token)}

/-- Readers that try a literal first are the readers of the grammar. -/
theorem Backtracks.readers_eq (h : Backtracks literal? value? entries? items?)
    (tokens : List Token) :
    value? tokens = valueAhead? tokens ∧ entries? tokens = objectEntries tokens ∧
      items? tokens = arrayItems tokens := by
  induction hlength : tokens.length using Nat.strongRecOn generalizing tokens with
  | ind length ih =>
      subst hlength
      have hvalue : ∀ later, later.length ≤ tokens.length → value? later = valueAhead? later := by
        intro later hle
        have hliteral : literal? later = literalAhead? later := by
          rw [h.literal, literalAhead?]
          apply literalBy_congr
          · intro inside hlt
            exact (ih inside.length (Nat.lt_of_lt_of_le hlt hle) inside rfl).2.1
          · intro inside hlt
            exact (ih inside.length (Nat.lt_of_lt_of_le hlt hle) inside rfl).2.2
        rw [h.value, valueAhead?_eq_literalOrVerbatim]
        rw [literalOrVerbatim, literalOrVerbatim, hliteral]
      have hentry : entryBy value? tokens = entryBy valueAhead? tokens :=
        entryBy_congr fun later hlt => hvalue later (Nat.le_of_lt hlt)
      refine ⟨hvalue tokens (Nat.le_refl _), ?_, ?_⟩
      · rw [h.entries, objectEntries_step]
        apply listingStep_congr hentry length_lt_of_entryBy
        intro later hlt
        exact (ih later.length hlt later rfl).2.1
      · rw [h.items, arrayItems_step]
        apply listingStep_congr (hvalue tokens (Nat.le_refl _)) length_lt_of_valueAhead?
        intro later hlt
        exact (ih later.length hlt later rfl).2.2

/-- Readers that try a literal first stop where the text of the value ends, whether they have taken
the literal or not. -/
theorem Backtracks.rest_eq (h : Backtracks literal? value? entries? items?)
    (tokens : List Token) :
    (value? tokens).map Prod.snd = (verbatimAhead? tokens).map Prod.snd := by
  rw [(h.readers_eq tokens).1, valueAhead?, verbatimAhead?]
  cases valueRun 0 tokens with
  | mk run later => cases run <;> rfl

end Unique

end TableModels.Column
