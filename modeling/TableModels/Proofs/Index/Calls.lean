import TableModels.Index.Descriptor
import TableModels.Proofs.Column.Lexing
import TableModels.Proofs.Text.Matches
import TableModels.Proofs.Text.Splitting

/-!
# The calls in an index descriptor

`SpellsCall` is the shape of a call that declares an index: a word, an optional name between quotes,
and a list of columns that ends at its first closing parenthesis. The reader of calls reads this
shape and nothing else. `FindsCalls` says which calls are found in a text when it is searched from
the left, and the search has exactly one outcome.

## Implementation notes

A search goes on behind a call that it has found, so a call that begins inside another one is not
found, and neither is a call whose word continues a longer word.
-/

namespace TableModels.Index

open Column (IsBlank StopsAt)
open Text (after? cut_eq_iff head_dropWhile_ne)

/-- The word that opens a call of the kind, with its parenthesis. -/
def openingText : IndexKind → List Char
  | .unique => "uniqueIndex(".toList
  | .index => "index(".toList

/-- The text in which the name of a call is given, if it is given. -/
inductive SpellsName : Option (List Char) → List Char → Prop
  | absent : SpellsName none []
  | quoted {quote : Char} {name : List Char} (hquote : quote = '"' ∨ quote = '\'')
      (hname : quote ∉ name) : SpellsName (some name) (quote :: (name ++ [quote]))

/-- The text of a call: `index("name").on(columns)` or `uniqueIndex("name").on(columns)`, with white
space around the name and in front of `.on(`. -/
def SpellsCall (call : IndexCall) (text : List Char) : Prop :=
  ∃ name before behind between, SpellsName call.name name ∧ IsBlank before ∧ IsBlank behind ∧
    IsBlank between ∧ ')' ∉ call.columns ∧
    text = openingText call.kind ++ (before ++ (name ++ (behind ++ (")".toList ++ (between ++
      (".on(".toList ++ (call.columns ++ [')'])))))))

/-- A word may begin behind the character. -/
def AtBoundary (previous : Option Char) : Prop :=
  previous.any Unicode.isWordCharacter = false

/-- The calls that are found in a text from the left, given the character in front of it. -/
inductive FindsCalls : Option Char → List Char → List IndexCall → Prop
  | nil {previous : Option Char} : FindsCalls previous [] []
  | skip {previous : Option Char} {c : Char} {rest : List Char} {calls : List IndexCall}
      (hnone : AtBoundary previous → ∀ call matched later, SpellsCall call matched →
        c :: rest ≠ matched ++ later)
      (hrest : FindsCalls (some c) rest calls) : FindsCalls previous (c :: rest) calls
  | found {previous : Option Char} {call : IndexCall} {matched later : List Char}
      {calls : List IndexCall} (hprevious : AtBoundary previous) (hcall : SpellsCall call matched)
      (hlater : FindsCalls matched.getLast? later calls) :
      FindsCalls previous (matched ++ later) (call :: calls)

/-! ### The parts of a call -/

theorem quotedName?_eq_some_iff {quote : Char} {text name later : List Char} :
    quotedName? quote text = some (name, later) ↔
      quote ∉ name ∧ text = quote :: (name ++ quote :: later) := by
  constructor
  · intro h
    unfold quotedName? at h
    split at h
    · cases h
    · rename_i c rest
      split at h
      · rename_i hc
        subst hc
        split at h
        · cases h
        · rename_i d after hdrop
          cases h
          obtain rfl := head_dropWhile_ne hdrop
          obtain ⟨hrest, hnot⟩ := cut_eq_iff.1 ⟨rfl, hdrop⟩
          exact ⟨hnot, by rw [← hrest]⟩
      · cases h
  · rintro ⟨hnot, rfl⟩
    obtain ⟨htake, hdrop⟩ :=
      cut_eq_iff.2 ⟨(rfl : name ++ quote :: later = name ++ quote :: later), hnot⟩
    simp [quotedName?, htake, hdrop]

theorem columnList?_eq_some_iff {text columns later : List Char} :
    columnList? text = some (columns, later) ↔
      ')' ∉ columns ∧ text = columns ++ ')' :: later := by
  constructor
  · intro h
    unfold columnList? at h
    split at h
    · cases h
    · rename_i d after hdrop
      cases h
      obtain rfl := head_dropWhile_ne hdrop
      obtain ⟨htext, hnot⟩ := cut_eq_iff.1 ⟨rfl, hdrop⟩
      exact ⟨hnot, htext⟩
  · rintro ⟨hnot, rfl⟩
    obtain ⟨htake, hdrop⟩ :=
      cut_eq_iff.2 ⟨(rfl : columns ++ ')' :: later = columns ++ ')' :: later), hnot⟩
    simp [columnList?, htake, hdrop]

theorem openingText_index_ne (rest later : List Char) :
    openingText .index ++ rest ≠ openingText .unique ++ later := by
  intro h
  have hhead : some 'i' = some 'u' := congrArg List.head? h
  exact absurd (Option.some.inj hhead) (by decide)

theorem openingWord?_eq_some_iff {text later : List Char} {kind : IndexKind} :
    openingWord? text = some (kind, later) ↔ text = openingText kind ++ later := by
  have hunique : after? "uniqueIndex(".toList text = after? (openingText .unique) text := rfl
  have hindex : after? "index(".toList text = after? (openingText .index) text := rfl
  unfold openingWord?
  rw [hunique, hindex]
  cases hafter : after? (openingText .unique) text with
  | some rest =>
      obtain rfl := Text.after?_eq_some_iff.1 hafter
      simp only [Option.some.injEq, Prod.mk.injEq]
      constructor
      · rintro ⟨rfl, rfl⟩
        rfl
      · intro h
        cases kind with
        | index => exact absurd h.symm (openingText_index_ne _ _)
        | unique => exact ⟨rfl, List.append_cancel_left h⟩
  | none =>
      simp only [Option.map_eq_some_iff, Prod.mk.injEq, Text.after?_eq_some_iff]
      constructor
      · rintro ⟨rest, rfl, rfl, rfl⟩
        rfl
      · intro h
        cases kind with
        | index => exact ⟨later, h, rfl, rfl⟩
        | unique =>
            rw [Text.after?_eq_some_iff.2 h] at hafter
            cases hafter

theorem exists_isBlank_skipSpace (text : List Char) :
    ∃ blank, IsBlank blank ∧ text = blank ++ skipSpace text := by
  refine ⟨text.takeWhile Unicode.isWhitespace, ?_, (List.takeWhile_append_dropWhile ..).symm⟩
  exact List.all_eq_true.1 List.all_takeWhile

theorem skipSpace_append {blank rest : List Char} (hblank : IsBlank blank)
    (hstop : StopsAt Unicode.isWhitespace rest) : skipSpace (blank ++ rest) = rest :=
  Column.dropWhile_append_of_takeWhile (Column.takeWhile_append_eq_iff.2 ⟨hblank, hstop⟩)

theorem spellsName_optionalName (text : List Char) :
    ∃ name, SpellsName (optionalName text).1 name ∧ text = name ++ (optionalName text).2 := by
  unfold optionalName
  split
  · rename_i name later h
    obtain ⟨hnot, rfl⟩ := quotedName?_eq_some_iff.1 h
    exact ⟨_, .quoted (Or.inl rfl) hnot, by simp⟩
  · split
    · rename_i name later h
      obtain ⟨hnot, rfl⟩ := quotedName?_eq_some_iff.1 h
      exact ⟨_, .quoted (Or.inr rfl) hnot, by simp⟩
    · exact ⟨[], .absent, rfl⟩

theorem optionalName_of_spellsName {name : Option (List Char)} {text : List Char}
    (h : SpellsName name text) (later : List Char)
    (habsent : name = none → ∀ c, later.head? = some c → c ≠ '"' ∧ c ≠ '\'') :
    optionalName (text ++ later) = (name, later) := by
  cases h with
  | absent =>
      have hnone : ∀ quote, (∀ c, later.head? = some c → c ≠ quote) →
          quotedName? quote later = none := by
        intro quote hquote
        cases later with
        | nil => rfl
        | cons c rest => simp [quotedName?, hquote c rfl]
      have hdouble := hnone '"' fun c hc => (habsent rfl c hc).1
      have hsingle := hnone '\'' fun c hc => (habsent rfl c hc).2
      simp [optionalName, hdouble, hsingle]
  | @quoted quote name hquote hname =>
      have hread : quotedName? quote (quote :: (name ++ [quote]) ++ later) = some (name, later) :=
        quotedName?_eq_some_iff.2 ⟨hname, by simp⟩
      obtain rfl | rfl := hquote
      · simp only [optionalName, hread]
      · have hdouble : quotedName? '"' ('\'' :: (name ++ ['\'']) ++ later) = none := by
          simp [quotedName?]
        simp only [optionalName, hdouble, hread]

theorem stopsAt_append {continues : Char → Bool} (text : List Char) {c : Char}
    (hhead : text.head? = some c) (h : continues c = false) (rest : List Char) :
    StopsAt continues (text ++ rest) := by
  intro d hd
  rw [List.head?_append, hhead] at hd
  cases hd
  exact h

/-- The name of a call, read between white space in front of a closing parenthesis. -/
theorem optionalName_between {name : Option (List Char)} {text before behind : List Char}
    (hname : SpellsName name text) (hbefore : IsBlank before) (hbehind : IsBlank behind)
    (rest : List Char) :
    let named := optionalName (skipSpace (before ++ (text ++ (behind ++ (")".toList ++ rest)))))
    named.1 = name ∧ skipSpace named.2 = ")".toList ++ rest := by
  have hstop : StopsAt Unicode.isWhitespace (")".toList ++ rest) :=
    stopsAt_append _ rfl (by decide) rest
  cases hname with
  | absent =>
      have hblank : IsBlank (before ++ behind) := List.forall_mem_append.2 ⟨hbefore, hbehind⟩
      have hskip := skipSpace_append hblank hstop
      have hnamed : optionalName ([] ++ (")".toList ++ rest)) = (none, ")".toList ++ rest) := by
        apply optionalName_of_spellsName .absent _
        rintro - c ⟨⟩
        decide
      rw [List.append_assoc] at hskip
      rw [List.nil_append] at hnamed ⊢
      rw [hskip, hnamed]
      exact ⟨rfl, skipSpace_append Column.isBlank_nil hstop⟩
  | @quoted quote name hquote hnot =>
      have hspace : Unicode.isWhitespace quote = false := by
        obtain rfl | rfl := hquote <;> decide
      have hskip := skipSpace_append hbefore
        (stopsAt_append (quote :: (name ++ [quote])) rfl hspace
          (behind ++ (")".toList ++ rest)))
      have hnamed := optionalName_of_spellsName (.quoted hquote hnot)
        (behind ++ (")".toList ++ rest)) (by simp)
      rw [hskip, hnamed]
      exact ⟨rfl, skipSpace_append hbehind hstop⟩

/-- The reader of calls reads what has the shape of a call at the beginning of a word. -/
theorem readCall_eq_some_iff {previous : Option Char} {text later : List Char} {call : IndexCall} :
    readCall previous text = some (call, later) ↔
      AtBoundary previous ∧ ∃ matched, SpellsCall call matched ∧ text = matched ++ later := by
  constructor
  · intro h
    unfold readCall at h
    split at h
    · cases h
    · rename_i hprevious
      split at h
      · cases h
      · rename_i kind opened hopen
        dsimp only at h
        split at h
        · cases h
        · rename_i closed hclose
          split at h
          · cases h
          · rename_i listed hon
            split at h
            · cases h
            · rename_i columns rest hcolumns
              cases h
              refine ⟨Bool.eq_false_iff.2 hprevious, ?_⟩
              obtain ⟨before, hbefore, hopened⟩ := exists_isBlank_skipSpace opened
              obtain ⟨name, hname, hnamed⟩ := spellsName_optionalName (skipSpace opened)
              obtain ⟨behind, hbehind, hbehindText⟩ :=
                exists_isBlank_skipSpace (optionalName (skipSpace opened)).2
              obtain ⟨between, hbetween, hclosed⟩ := exists_isBlank_skipSpace closed
              obtain ⟨hnot, hlisted⟩ := columnList?_eq_some_iff.1 hcolumns
              refine ⟨_, ⟨name, before, behind, between, hname, hbefore, hbehind, hbetween, hnot,
                rfl⟩, ?_⟩
              rw [Text.after?_eq_some_iff] at hclose hon
              rw [openingWord?_eq_some_iff.1 hopen, hopened, hnamed, hbehindText, hclose, hclosed,
                hon, hlisted]
              simp only [List.append_assoc, List.cons_append, List.nil_append]
  · rintro ⟨hprevious, matched, ⟨name, before, behind, between, hname, hbefore, hbehind, hbetween,
      hnot, rfl⟩, rfl⟩
    have hopen : ∀ rest, openingWord? (openingText call.kind ++ rest) = some (call.kind, rest) :=
      fun _ => openingWord?_eq_some_iff.2 rfl
    have hafter : ∀ start rest, after? start (start ++ rest) = some rest :=
      fun _ _ => Text.after?_eq_some_iff.2 rfl
    have hskip := skipSpace_append hbetween
      (stopsAt_append ".on(".toList rfl (by decide) (call.columns ++ ')' :: later))
    have hcolumns : columnList? (call.columns ++ ')' :: later) = some (call.columns, later) :=
      columnList?_eq_some_iff.2 ⟨hnot, rfl⟩
    obtain ⟨hread, hclosing⟩ := optionalName_between hname hbefore hbehind
      (between ++ (".on(".toList ++ (call.columns ++ ')' :: later)))
    unfold AtBoundary at hprevious
    simp only [List.append_assoc, List.singleton_append, readCall, hprevious, hopen, hread,
      hclosing, hafter, hskip, hcolumns]
    simp

/-! ### The search -/

theorem readCall_eq_none_iff {previous : Option Char} {text : List Char} :
    readCall previous text = none ↔
      (AtBoundary previous → ∀ call matched later, SpellsCall call matched →
        text ≠ matched ++ later) := by
  rw [Option.eq_none_iff_forall_ne_some]
  constructor
  · intro h hprevious call matched later hcall htext
    exact h (call, later) (readCall_eq_some_iff.2 ⟨hprevious, matched, hcall, htext⟩)
  · rintro h ⟨call, later⟩ hread
    obtain ⟨hprevious, matched, hcall, htext⟩ := readCall_eq_some_iff.1 hread
    exact h hprevious call matched later hcall htext

/-- A search has exactly one outcome, and it is what the leftmost matches are. -/
theorem findsCalls_iff {previous : Option Char} {text : List Char} {calls : List IndexCall} :
    FindsCalls previous text calls ↔
      (callPattern.pieces previous text).filterMap Text.Piece.value? = calls := by
  constructor
  · intro h
    induction h with
    | nil =>
        rw [Text.Pattern.pieces]
        rfl
    | skip hnone _ ih =>
        rw [Text.Pattern.pieces_of_no_match (readCall_eq_none_iff.2 hnone)]
        exact ih
    | @found previous call matched later calls hprevious hcall _ ih =>
        have hread : callPattern.read previous (matched ++ later) = some (call, later) :=
          readCall_eq_some_iff.2 ⟨hprevious, matched, hcall, rfl⟩
        rw [Text.Pattern.pieces_of_match hread, List.filterMap_cons, ih]
        rfl
  · rintro rfl
    induction previous, text using Text.Pattern.search_induction callPattern with
    | nil previous =>
        rw [Text.Pattern.pieces]
        exact .nil
    | kept previous c rest hread ih =>
        rw [Text.Pattern.pieces_of_no_match hread]
        exact .skip (readCall_eq_none_iff.1 hread) ih
    | found previous call matched later hread ih =>
        rw [Text.Pattern.pieces_of_match hread]
        obtain ⟨hprevious, spelled, hcall, htext⟩ := readCall_eq_some_iff.1 hread
        obtain rfl := List.append_cancel_right htext
        exact .found hprevious hcall ih

/-- A search always has an outcome. -/
theorem exists_findsCalls (previous : Option Char) (text : List Char) :
    ∃ calls, FindsCalls previous text calls :=
  ⟨_, findsCalls_iff.2 rfl⟩

/-! ### What stands around a call -/

/-- The word that opens a call of the kind, without its parenthesis. -/
def openingName : IndexKind → List Char
  | .unique => "uniqueIndex".toList
  | .index => "index".toList

theorem openingText_eq (kind : IndexKind) : openingText kind = openingName kind ++ ['('] := by
  cases kind <;> rfl

theorem paren_notMem_openingName (kind : IndexKind) : '(' ∉ openingName kind := by
  cases kind <;> decide

theorem exists_openingName_eq_cons (kind : IndexKind) :
    ∃ first word, openingName kind = first :: word ∧ Unicode.isWhitespace first = false := by
  cases kind with
  | index => exact ⟨'i', "ndex".toList, by decide, by decide⟩
  | unique => exact ⟨'u', "niqueIndex".toList, by decide, by decide⟩

/-- None of the words that open a call ends another one. -/
theorem eq_nil_of_append_openingName {before : List Char} {kind other : IndexKind}
    (h : before ++ openingName kind = openingName other) : before = [] := by
  cases kind with
  | index =>
      cases other with
      | index => exact List.append_left_eq_self.1 h
      | unique =>
          have hcut : before ++ "index".toList = "unique".toList ++ "Index".toList := h
          exact absurd (List.append_inj_right' hcut rfl) (by decide)
  | unique =>
      cases other with
      | index =>
          have hlength := congrArg List.length h
          rw [List.length_append] at hlength
          have hlong : (openingName .unique).length = 11 := rfl
          have hshort : (openingName .index).length = 5 := rfl
          omega
      | unique => exact List.append_left_eq_self.1 h

theorem SpellsCall.exists_cut {call : IndexCall} {text : List Char} (h : SpellsCall call text) :
    ∃ rest, text = openingName call.kind ++ '(' :: rest := by
  obtain ⟨name, before, behind, between, -, -, -, -, -, rfl⟩ := h
  exact ⟨_, by rw [openingText_eq, List.append_assoc]; rfl⟩

/-- No call begins in a text without parenthesis in front of a call. -/
theorem SpellsCall.append_ne {call other : IndexCall} {before matched spelled : List Char}
    (hbefore : before ≠ []) (hparen : '(' ∉ before) (h : SpellsCall call matched)
    (hother : SpellsCall other spelled) (later behind : List Char) :
    before ++ (matched ++ later) ≠ spelled ++ behind := by
  obtain ⟨rest, rfl⟩ := h.exists_cut
  obtain ⟨otherRest, rfl⟩ := hother.exists_cut
  intro htext
  apply hbefore
  have hnot : '(' ∉ before ++ openingName call.kind := by
    simp [hparen, paren_notMem_openingName]
  have hcut : (before ++ openingName call.kind) ++ '(' :: (rest ++ later) =
      openingName other.kind ++ '(' :: (otherRest ++ behind) := by
    simpa using htext
  have hwords := (Text.eq_of_append_cons_eq hnot (paren_notMem_openingName _) hcut).1
  exact eq_nil_of_append_openingName hwords

/-- A call is found behind a text without parenthesis that does not end in a word. -/
theorem FindsCalls.of_spellsCall {call : IndexCall} {before matched later : List Char}
    {calls : List IndexCall} (hparen : '(' ∉ before) (hcall : SpellsCall call matched)
    {previous : Option Char} (hboundary : AtBoundary (before.getLast?.or previous))
    (hlater : FindsCalls matched.getLast? later calls) :
    FindsCalls previous (before ++ (matched ++ later)) (call :: calls) := by
  induction before generalizing previous with
  | nil =>
      rw [List.nil_append]
      exact .found hboundary hcall hlater
  | cons c rest ih =>
      have hprevious : (c :: rest).getLast?.or previous = rest.getLast?.or (some c) := by
        cases hlast : rest.getLast? <;> simp [List.getLast?_cons, hlast]
      rw [hprevious] at hboundary
      apply FindsCalls.skip
      · intro _ other spelled behind hother
        exact hcall.append_ne (List.cons_ne_nil _ _) hparen hother later behind
      · exact ih (fun h => hparen (List.mem_cons_of_mem _ h)) hboundary

/-- In white space no call is found. -/
theorem FindsCalls.of_isBlank {text : List Char} (h : IsBlank text) (previous : Option Char) :
    FindsCalls previous text [] := by
  induction text generalizing previous with
  | nil => exact .nil
  | cons c rest ih =>
      apply FindsCalls.skip
      · intro _ call matched later hcall heq
        obtain ⟨behind, rfl⟩ := hcall.exists_cut
        obtain ⟨first, word, hword, hsolid⟩ := exists_openingName_eq_cons call.kind
        rw [hword, List.append_assoc, List.cons_append] at heq
        rw [(List.cons.inj heq).1] at h
        exact absurd (h first List.mem_cons_self) (Bool.eq_false_iff.1 hsolid)
      · exact ih (fun d hd => h d (List.mem_cons_of_mem _ hd)) (some c)

end TableModels.Index
