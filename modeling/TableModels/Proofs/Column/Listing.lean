import TableModels.Proofs.Column.TypeArguments
import TableModels.Proofs.ExceptResult

/-!
# Lists of values between brackets

Arguments, array items and object entries are written alike: elements with single commas between
them, one comma more where the writer likes, and a closing bracket. `IsListing` describes such a
list behind its opening bracket, and the three readers accept exactly what it describes.

## Implementation notes

The three readers repeat one step, `listingStep`, with an element reader and a closing bracket of
their own. What they accept is proved once, from that step.
-/

namespace TableModels.Column

/-- Elements up to a closing bracket, where `part` tells the tokens of an element. Commas stand
between the elements, and one may stand behind the last of them. -/
inductive IsListing {α : Type} (close : Char) (part : List Token → α → Prop) :
    List Token → List α → Prop
  | close {token : Token} (hclose : token.isPunct close = true) : IsListing close part [token] []
  | last {run : List Token} {element : α} {token : Token} (hpart : part run element)
      (hclose : token.isPunct close = true) : IsListing close part (run ++ [token]) [element]
  | more {run : List Token} {element : α} {comma : Token} {rest : List Token} {elements : List α}
      (hpart : part run element) (hcomma : comma.isPunct ',' = true)
      (hrest : IsListing close part rest elements) :
      IsListing close part (run ++ comma :: rest) (element :: elements)

/-- The tokens of a value, with the value that they denote. -/
def IsItem (run : List Token) (value : Value) : Prop :=
  IsValueRun run ∧ value = runValue run

/-- The tokens of an object entry, with its key and its value. -/
def IsEntry (run : List Token) (entry : String × Value) : Prop :=
  ∃ key colon inside, run = key :: colon :: inside ∧ keyOf? key.kind = some entry.1 ∧
    colon.isPunct ':' = true ∧ IsItem inside entry.2

/-- The value at the head of the tokens, and the tokens behind it. -/
def valueAhead? (tokens : List Token) : Option (Value × List Token) :=
  match valueRun 0 tokens with
  | ([], _) => none
  | (first :: run, later) => some (runValue (first :: run), later)

/-- The object entry at the head of the tokens, whose value is read by `value?`, and the tokens
behind it. -/
def entryBy (value? : List Token → Option (Value × List Token)) :
    List Token → Option ((String × Value) × List Token)
  | token :: colon :: rest =>
      match keyOf? token.kind with
      | some key =>
          if colon.isPunct ':' then
            (value? rest).map fun (value, later) => ((key, value), later)
          else
            none
      | none => none
  | _ => none

/-- One step of reading a list: the closing bracket, or an element with what separates it from the
rest of the list. -/
def listingStep {α : Type} (close : Char) (element? : List Token → Option (α × List Token))
    (read : List Token → Option (List α × List Token)) :
    List Token → Option (List α × List Token)
  | [] => none
  | token :: rest =>
      if token.isPunct close then
        some ([], rest)
      else
        match element? (token :: rest) with
        | some (element, separator :: later) =>
            if separator.isPunct ',' then
              (read later).map fun (elements, after) => (element :: elements, after)
            else if separator.isPunct close then
              some ([element], later)
            else
              none
        | _ => none

/-- Elements may be seen as what a function makes of them. -/
theorem IsListing.map {α β : Type} {close : Char} {part : List Token → α → Prop}
    {part' : List Token → β → Prop} {f : α → β} {used : List Token} {elements : List α}
    (h : IsListing close part used elements)
    (hpart : ∀ {run element}, part run element → part' run (f element)) :
    IsListing close part' used (elements.map f) := by
  induction h with
  | close hclose => exact .close hclose
  | last hrun hclose => exact .last (hpart hrun) hclose
  | more hrun hcomma _ ih => exact .more (hpart hrun) hcomma ih

/-- Elements that a function makes of others come from a list of those others. -/
theorem IsListing.exists_map {α β : Type} {close : Char} {part : List Token → α → Prop}
    {part' : List Token → β → Prop} {f : α → β} {used : List Token} {elements : List β}
    (h : IsListing close part' used elements)
    (hpart : ∀ {run element}, part' run element → ∃ source, part run source ∧ element = f source) :
    ∃ sources, IsListing close part used sources ∧ elements = sources.map f := by
  induction h with
  | close hclose => exact ⟨[], .close hclose, rfl⟩
  | last hrun hclose =>
      obtain ⟨source, hsource, rfl⟩ := hpart hrun
      exact ⟨[source], .last hsource hclose, rfl⟩
  | more hrun hcomma _ ih =>
      obtain ⟨source, hsource, rfl⟩ := hpart hrun
      obtain ⟨sources, hsources, rfl⟩ := ih
      exact ⟨source :: sources, .more hsource hcomma hsources, rfl⟩

/-- The brackets of a list are closed behind its last token, and not before. -/
theorem IsListing.depthAfter_eq {α : Type} {close : Char} {part : List Token → α → Prop}
    {used : List Token} {elements : List α} (h : IsListing close part used elements)
    (hclose : ∀ token : Token, token.isPunct close = true → token.closes = true)
    (hpart : ∀ {run element}, part run element → depthAfter 0 run = some 0) :
    depthAfter 1 used = some 0 := by
  induction h with
  | @close token htoken =>
      have hcloses := hclose token htoken
      simp [depthAfter, opens_eq_false_of_closes hcloses, hcloses]
  | @last run element token hrun htoken =>
      have hcloses := hclose token htoken
      rw [depthAfter_append, depthAfter_add (hpart hrun) 1]
      simp [depthAfter, opens_eq_false_of_closes hcloses, hcloses]
  | @more run element comma rest elements hrun hcomma hrest ih =>
      rw [depthAfter_append, depthAfter_add (hpart hrun) 1]
      simpa [depthAfter, Token.opens, Token.closes, isPunct_eq_false_of_ne hcomma] using ih

/-! ### What an element reader takes -/

/-- In front of a token the value reader takes the tokens of a value. -/
theorem valueAhead?_eq_some_iff {tokens later : List Token} {separator : Token} {value : Value} :
    valueAhead? tokens = some (value, separator :: later) ↔
      endsValue (separator :: later) = true ∧
        ∃ run, tokens = run ++ separator :: later ∧ IsItem run value := by
  constructor
  · intro h
    cases hrun : valueRun 0 tokens with
    | mk run rest =>
        have happend := valueRun_append 0 tokens
        have hends := endsValue_valueRun 0 tokens
        rw [hrun] at happend hends
        cases run with
        | nil => simp [valueAhead?, hrun] at h
        | cons first run =>
            simp only [valueAhead?, hrun, Option.some.injEq, Prod.mk.injEq] at h
            obtain ⟨rfl, rfl⟩ := h
            exact ⟨hends, first :: run, happend.symm, isValueRun_of_valueRun hrun, rfl⟩
  · rintro ⟨hends, run, rfl, hrun, rfl⟩
    have hread := hrun.valueRun_append hends
    cases run with
    | nil => exact absurd rfl hrun.nonempty
    | cons first run => simp only [valueAhead?, hread]

/-- In front of a token the entry reader takes the tokens of an entry. -/
theorem entryBy_eq_some_iff {tokens later : List Token} {separator : Token}
    {entry : String × Value} :
    entryBy valueAhead? tokens = some (entry, separator :: later) ↔
      endsValue (separator :: later) = true ∧
        ∃ run, tokens = run ++ separator :: later ∧ IsEntry run entry := by
  constructor
  · intro h
    unfold entryBy at h
    split at h
    · rename_i token colon rest
      split at h
      · rename_i key hkey
        split at h
        · rename_i hcolon
          obtain ⟨⟨value, after⟩, hvalue, hpair⟩ := Option.map_eq_some_iff.1 h
          simp only [Prod.mk.injEq] at hpair
          obtain ⟨rfl, rfl⟩ := hpair
          obtain ⟨hends, run, rfl, hitem⟩ := valueAhead?_eq_some_iff.1 hvalue
          exact ⟨hends, token :: colon :: run, rfl, token, colon, run, rfl, hkey, hcolon, hitem⟩
        · cases h
      · cases h
    · cases h
  · rintro ⟨hends, run, rfl, key, colon, inside, rfl, hkey, hcolon, hitem⟩
    have hvalue := valueAhead?_eq_some_iff.2 ⟨hends, inside, rfl, hitem⟩
    simp [entryBy, hkey, hcolon, hvalue]

/-- No value begins with a closing bracket. -/
theorem IsValueRun.closes_eq_false {first : Token} {run : List Token}
    (h : IsValueRun (first :: run)) : first.closes = false := by
  have hdepth := (isValueRun_iff.1 h).2
  cases hcloses : first.closes with
  | false => rfl
  | true => simp [depthAfter, opens_eq_false_of_closes hcloses, hcloses] at hdepth

theorem isPunct_eq_false_of_keyOf? {token : Token} {key : String}
    (h : keyOf? token.kind = some key) (c : Char) : token.isPunct c = false := by
  cases hkind : token.kind <;> simp_all [Token.isPunct, keyOf?]

/-! ### What a list reader takes -/

/-- A reader of lists takes one step after the other, its elements are those that `part` tells,
and no element begins with the closing bracket. -/
structure IsListReader {α : Type} (close : Char) (part : List Token → α → Prop)
    (element? : List Token → Option (α × List Token))
    (read : List Token → Option (List α × List Token)) : Prop where
  step : ∀ tokens, read tokens = listingStep close element? read tokens
  closes : ∀ token : Token, token.isPunct close = true → token.closes = true
  element : ∀ {tokens later separator element},
    element? tokens = some (element, separator :: later) ↔
      endsValue (separator :: later) = true ∧
        ∃ run, tokens = run ++ separator :: later ∧ part run element
  first : ∀ {run element}, part run element →
    ∃ first rest, run = first :: rest ∧ first.isPunct close = false

namespace IsListReader

variable {α : Type} {close : Char} {part : List Token → α → Prop}
variable {element? : List Token → Option (α × List Token)}
variable {read : List Token → Option (List α × List Token)}

/-- What is read as a list is a list. -/
theorem exists_isListing (h : IsListReader close part element? read) {tokens after : List Token}
    {elements : List α} (hread : read tokens = some (elements, after)) :
    ∃ used, tokens = used ++ after ∧ IsListing close part used elements := by
  induction hlength : tokens.length using Nat.strongRecOn generalizing tokens after elements with
  | ind length ih =>
    subst hlength
    rw [h.step] at hread
    cases tokens with
    | nil => cases hread
    | cons token rest =>
        simp only [listingStep] at hread
        split at hread
        · rename_i htoken
          simp only [Option.some.injEq, Prod.mk.injEq] at hread
          obtain ⟨rfl, rfl⟩ := hread
          exact ⟨[token], rfl, .close htoken⟩
        · split at hread
          · rename_i element separator later hahead
            obtain ⟨-, run, heq, hpart⟩ := h.element.1 hahead
            split at hread
            · rename_i hcomma
              obtain ⟨⟨others, last⟩, hothers, hpair⟩ := Option.map_eq_some_iff.1 hread
              simp only [Prod.mk.injEq] at hpair
              obtain ⟨rfl, rfl⟩ := hpair
              have hlt : later.length < (token :: rest).length := by
                simp only [heq, List.length_append, List.length_cons]
                omega
              obtain ⟨used, rfl, hused⟩ := ih later.length hlt hothers rfl
              exact ⟨run ++ separator :: used, by simp [heq], .more hpart hcomma hused⟩
            · split at hread
              · rename_i hlast
                simp only [Option.some.injEq, Prod.mk.injEq] at hread
                obtain ⟨rfl, rfl⟩ := hread
                exact ⟨run ++ [separator], by simp [heq], .last hpart hlast⟩
              · cases hread
          · cases hread

/-- In front of a separator one element is read, whatever comes behind it. -/
theorem exists_ahead (h : IsListReader close part element? read) {run : List Token} {element : α}
    {separator : Token} (hpart : part run element) (later : List Token)
    (hend : endsValue (separator :: later) = true) :
    ∃ first rest, run ++ separator :: later = first :: rest ∧ first.isPunct close = false ∧
      element? (first :: rest) = some (element, separator :: later) := by
  obtain ⟨first, rest, rfl, hne⟩ := h.first hpart
  exact ⟨first, rest ++ separator :: later, rfl, hne, h.element.2 ⟨hend, _, rfl, hpart⟩⟩

/-- A list is read as a list. -/
theorem read_append (h : IsListReader close part element? read) {used : List Token}
    {elements : List α} (hused : IsListing close part used elements) (after : List Token) :
    read (used ++ after) = some (elements, after) := by
  induction hused with
  | close htoken =>
      rw [h.step]
      simp [listingStep, htoken]
  | @last run element token hpart htoken =>
      have hend : endsValue (token :: after) = true := by
        simp [endsValue, h.closes token htoken]
      have hcomma : token.isPunct ',' = false := by
        apply Bool.eq_false_iff.2
        intro hcomma
        have hcloses := h.closes token htoken
        simp [Token.closes, isPunct_eq_false_of_ne hcomma] at hcloses
      obtain ⟨first, rest, heq, hne, hahead⟩ := h.exists_ahead hpart after hend
      rw [List.append_assoc, List.singleton_append, heq, h.step]
      simp [listingStep, hne, hahead, hcomma, htoken]
  | @more run element comma rest elements hpart hcomma hrest ih =>
      have hend : endsValue (comma :: (rest ++ after)) = true := by
        simp [endsValue, hcomma]
      obtain ⟨first, others, heq, hne, hahead⟩ := h.exists_ahead hpart (rest ++ after) hend
      rw [List.append_assoc, List.cons_append, heq, h.step]
      simp [listingStep, hne, hahead, hcomma, ih]

/-- A reader of lists takes exactly the lists that its elements and its closing bracket make. -/
theorem eq_some_iff (h : IsListReader close part element? read) {tokens after : List Token}
    {elements : List α} :
    read tokens = some (elements, after) ↔
      ∃ used, tokens = used ++ after ∧ IsListing close part used elements := by
  constructor
  · exact h.exists_isListing
  · rintro ⟨used, rfl, hused⟩
    exact h.read_append hused after

end IsListReader

/-! ### The three lists -/

/-- The tokens of a value begin with a token that closes nothing. -/
theorem IsItem.exists_first {run : List Token} {value : Value} (h : IsItem run value) :
    ∃ first rest, run = first :: rest ∧ first.closes = false := by
  cases run with
  | nil => exact absurd rfl h.1.nonempty
  | cons first rest => exact ⟨first, rest, rfl, h.1.closes_eq_false⟩

/-- Where the reader finds no value in front of a token, `valueAhead?` finds none. -/
theorem valueAhead?_ne_some {tokens : List Token}
    (h : ∀ first run separator later,
      valueRun 0 tokens = (first :: run, separator :: later) → False)
    (value : Value) (separator : Token) (later : List Token) :
    valueAhead? tokens ≠ some (value, separator :: later) := by
  intro hahead
  unfold valueAhead? at hahead
  split at hahead
  · cases hahead
  · rename_i first run rest hrun
    simp only [Option.some.injEq, Prod.mk.injEq] at hahead
    rw [hahead.2] at hrun
    exact h first run separator later hrun

theorem objectEntries_step (tokens : List Token) :
    objectEntries tokens = listingStep '\x7d' (entryBy valueAhead?) objectEntries tokens := by
  rw [objectEntries.eq_def]
  cases tokens with
  | nil => rfl
  | cons token rest =>
      simp only [listingStep]
      split
      · rfl
      · cases hkey : keyOf? token.kind with
        | none => cases rest <;> simp [entryBy, hkey]
        | some key =>
            cases rest with
            | nil => simp [entryBy]
            | cons colon inside =>
                simp only [entryBy, hkey]
                split
                · split
                  · rename_i hrun
                    simp only [valueAhead?, hrun, Option.map_some]
                  · rename_i hnone
                    split
                    · rename_i entry separator later hentry
                      obtain ⟨⟨value, after⟩, hvalue, hpair⟩ := Option.map_eq_some_iff.1 hentry
                      simp only [Prod.mk.injEq] at hpair
                      rw [hpair.2] at hvalue
                      exact absurd hvalue (valueAhead?_ne_some hnone value separator later)
                    · rfl
                · rfl

theorem arrayItems_step (tokens : List Token) :
    arrayItems tokens = listingStep ']' valueAhead? arrayItems tokens := by
  rw [arrayItems.eq_def]
  cases tokens with
  | nil => rfl
  | cons token rest =>
      simp only [listingStep]
      split
      · rfl
      · split
        · rename_i hrun
          simp only [valueAhead?, hrun]
        · rename_i hnone
          split
          · rename_i value separator later hvalue
            exact absurd hvalue (valueAhead?_ne_some hnone value separator later)
          · rfl

theorem arguments_cons (stop : Nat) (token : Token) (rest : List Token) :
    arguments stop (token :: rest) =
      if token.isPunct ')' then .ok ([], rest)
      else match valueAhead? (token :: rest) with
        | none => .error (.expected .value token.offset)
        | some (_, []) => .error (.expected .commaOrClosingParenthesis stop)
        | some (value, separator :: later) =>
            if separator.isPunct ',' then
              (arguments stop later).map fun (values, after) => (value :: values, after)
            else if separator.isPunct ')' then
              .ok ([value], later)
            else
              .error (.expected .commaOrClosingParenthesis separator.offset) := by
  rw [arguments.eq_def]
  dsimp only
  split
  · rfl
  · split
    · rename_i hrun
      simp only [valueAhead?, hrun]
    · rename_i hrun
      simp only [valueAhead?, hrun]
    · rename_i first run separator later hrun
      simp only [valueAhead?, hrun]
      split
      · cases arguments stop later <;> rfl
      · rfl

theorem arguments_step (stop : Nat) (tokens : List Token) :
    (arguments stop tokens).toOption =
      listingStep ')' valueAhead? (fun later => (arguments stop later).toOption) tokens := by
  cases tokens with
  | nil =>
      rw [arguments]
      rfl
  | cons token rest =>
      rw [arguments_cons, listingStep]
      split
      · rfl
      · rcases valueAhead? (token :: rest) with _ | ⟨value, _ | ⟨separator, later⟩⟩
        · rfl
        · rfl
        · dsimp only
          split
          · exact toOption_map _ _
          · split <;> rfl

/-- A reader of values takes lists with a closing bracket of its own. -/
theorem isListReader_of_step {close : Char} {read : List Token → Option (List Value × List Token)}
    (hstep : ∀ tokens, read tokens = listingStep close valueAhead? read tokens)
    (hclose : ∀ token : Token, token.isPunct close = true → token.closes = true) :
    IsListReader close IsItem valueAhead? read where
  step := hstep
  closes := hclose
  element := valueAhead?_eq_some_iff
  first := by
    intro run element h
    obtain ⟨first, rest, rfl, hcloses⟩ := h.exists_first
    refine ⟨first, rest, rfl, Bool.eq_false_iff.2 fun hfirst => ?_⟩
    rw [hclose first hfirst] at hcloses
    cases hcloses

theorem objectEntries_eq_some_iff {tokens after : List Token} {entries : List (String × Value)} :
    objectEntries tokens = some (entries, after) ↔
      ∃ used, tokens = used ++ after ∧ IsListing '\x7d' IsEntry used entries := by
  have hreader : IsListReader '\x7d' IsEntry (entryBy valueAhead?) objectEntries := by
    constructor
    · exact objectEntries_step
    · intro token h
      simp [Token.closes, h]
    · exact entryBy_eq_some_iff
    · rintro run element ⟨key, colon, inside, rfl, hkey, -⟩
      exact ⟨key, colon :: inside, rfl, isPunct_eq_false_of_keyOf? hkey _⟩
  exact hreader.eq_some_iff

theorem arrayItems_eq_some_iff {tokens after : List Token} {items : List Value} :
    arrayItems tokens = some (items, after) ↔
      ∃ used, tokens = used ++ after ∧ IsListing ']' IsItem used items := by
  apply (isListReader_of_step arrayItems_step _).eq_some_iff
  intro token h
  simp [Token.closes, h]

theorem arguments_eq_ok_iff {stop : Nat} {tokens after : List Token} {values : List Value} :
    arguments stop tokens = .ok (values, after) ↔
      ∃ used, tokens = used ++ after ∧ IsListing ')' IsItem used values := by
  rw [← toOption_eq_some_iff]
  apply (isListReader_of_step (arguments_step stop) _).eq_some_iff
  intro token h
  simp [Token.closes, h]

end TableModels.Column
