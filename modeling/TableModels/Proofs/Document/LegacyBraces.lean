import Mathlib.Data.Finset.Card
import Mathlib.Data.List.Induction
import TableModels.Proofs.Document.StrayBraces

/-!
# Undoing the legacy defect

Legacy generators put a line with a closing brace before the mapping line of a model. `DamagedBy`
says line by line how a document becomes one with such lines. A pass removes just these lines: a
match begins at a brace that ends a line in front of a mapping line, and in the damaged document
only the inserted lines stand there. It ends with the first character of the line behind the
mapping, so the scan goes on inside that line, and the next inserted line is still ahead.

## Implementation notes

Behind the first line every line of a text stands behind a line feed. `behindFeeds` is the text of
such lines, so that the scan can be followed from any point of a line on.
-/

namespace TableModels.Document

/-! ### One pass -/

theorem repairPass_nil : repairPass [] = ([], 0) := by
  rw [repairPass, Text.Pattern.pieces]
  rfl

/-- A character at which nothing matches is kept. -/
theorem repairPass_cons {c : Char} {text : List Char} (h : readStrayBrace none (c :: text) = none) :
    repairPass (c :: text) = (c :: (repairPass text).1, (repairPass text).2) := by
  have hpieces : strayBrace.pieces none (c :: text) = .kept c :: strayBrace.pieces none text := by
    rw [Text.Pattern.pieces_of_no_match h, ignoresFront_strayBrace.pieces_eq]
  rw [repairPass, hpieces]
  rfl

theorem toList_tableLine (table : String) :
    (tableLine table).toList = mappingStart ++ (table.toList ++ ['"', ')']) := by
  have hstart : "  @@map(\"".toList = mappingStart := rfl
  have hclosing : "\")".toList = ['"', ')'] := by decide
  rw [tableLine, String.toList_append, String.toList_append, hstart, hclosing, List.append_assoc]

theorem mappingEnd_toList (table : String) :
    mappingEnd table.toList = (tableLine table).toList ++ ['\n', '\x7d'] := by
  rw [mappingEnd, toList_tableLine]
  simp only [List.append_assoc, List.cons_append, List.nil_append]

/-- An inserted brace is removed with its line feed. The pass goes on behind the brace that follows
the mapping line. -/
theorem repairPass_found {table : String} (hname : table ≠ "") (hquote : '"' ∉ table.toList)
    (later : List Char) :
    repairPass ('\x7d' :: '\n' :: ((tableLine table).toList ++ '\n' :: '\x7d' :: later)) =
      ((tableLine table).toList ++ '\n' :: '\x7d' :: (repairPass later).1,
        (repairPass later).2 + 1) := by
  have hread : strayBrace.read none (strayBraceText table.toList ++ later) =
      some (table.toList, later) :=
    read_strayBrace_eq_some_iff.2 ⟨by simpa using hname, hquote, rfl⟩
  have htext : '\x7d' :: '\n' :: ((tableLine table).toList ++ '\n' :: '\x7d' :: later) =
      strayBraceText table.toList ++ later := by
    simp [strayBraceText, mappingEnd_toList]
  rw [htext, repairPass, Text.Pattern.pieces_of_match hread,
    ignoresFront_strayBrace.pieces_eq _ none]
  simp [withoutBrace, Text.Piece.value?, strayBraceText, mappingEnd_toList, repairPass]

/-! ### Following the lines -/

/-- The text of lines that each stand behind a line feed. -/
def behindFeeds (written : List String) : List Char :=
  written.flatMap fun line => '\n' :: line.toList

theorem behindFeeds_cons (line : String) (rest : List String) :
    behindFeeds (line :: rest) = '\n' :: (line.toList ++ behindFeeds rest) :=
  rfl

theorem head?_behindFeeds (written : List String) :
    ∀ c ∈ (behindFeeds written).head?, c = '\n' := by
  cases written with
  | nil => simp [behindFeeds]
  | cons line rest => simp [behindFeeds_cons]

theorem repairPass_feed (text : List Char) :
    repairPass ('\n' :: text) = ('\n' :: (repairPass text).1, (repairPass text).2) := by
  apply repairPass_cons
  apply readStrayBrace_eq_none
  rintro ⟨later, heq⟩
  cases (List.cons.inj heq).1

/-- The characters of a line are kept, unless it ends in a brace and a mapping comes next. -/
theorem repairPass_append {line behind : List Char} (hflat : '\n' ∉ line)
    (hend : line.getLast? = some '\x7d' → ¬ '\n' :: mappingStart <+: behind) :
    repairPass (line ++ behind) = (line ++ (repairPass behind).1, (repairPass behind).2) := by
  induction line with
  | nil => rfl
  | cons c line ih =>
      rw [List.mem_cons, not_or] at hflat
      have hnone : readStrayBrace none (c :: (line ++ behind)) = none := by
        apply readStrayBrace_eq_none
        intro hstart
        obtain ⟨rfl, hfeed⟩ := List.cons_prefix_cons.1 hstart
        cases line with
        | nil => exact hend rfl hfeed
        | cons d line =>
            obtain ⟨rfl, -⟩ := List.cons_prefix_cons.1 hfeed
            exact hflat.2 List.mem_cons_self
      have hrest := ih hflat.2 (by
        intro hlast
        apply hend
        cases line with
        | nil => cases hlast
        | cons d line => rw [List.getLast?_cons_cons, hlast])
      rw [List.cons_append, repairPass_cons hnone, hrest]
      rfl

/-! ### Damage -/

/-- The line begins with a closing brace. -/
def BeginsWithBrace (line : String) : Prop :=
  line.toList.head? = some '\x7d'

instance (line : String) : Decidable (BeginsWithBrace line) :=
  inferInstanceAs (Decidable (line.toList.head? = some '\x7d'))

/-- The first lines become the second ones when as many lines with a brace are inserted, each before
the mapping line of a table behind which a brace begins a line. -/
inductive DamagedBy : List String → List String → Nat → Prop
  | nil : DamagedBy [] [] 0
  | keep (line : String) {written damaged : List String} {count : Nat}
      (h : DamagedBy written damaged count) : DamagedBy (line :: written) (line :: damaged) count
  | insert {table next : String} (hname : table ≠ "") (hquote : '"' ∉ table.toList)
      (hnext : BeginsWithBrace next) {written damaged : List String} {count : Nat}
      (h : DamagedBy written damaged count) :
      DamagedBy (tableLine table :: next :: written)
        ("\x7d" :: tableLine table :: next :: damaged) (count + 1)

theorem isFlat_rest {line : String} {c : Char} {rest : List Char} (h : line.toList = c :: rest)
    (hflat : IsFlat line) : IsFlat (String.ofList rest) := by
  rw [IsFlat, h, List.mem_cons, not_or] at hflat
  exact isFlat_ofList.2 hflat.2

/-- A line ends in a brace if a part of it does that reaches to its end. -/
theorem isChain_rest {line : String} {c : Char} {rest : List Char} (h : line.toList = c :: rest)
    {written : List String} (hchain : (line :: written).IsChain KeepsBraces) :
    (String.ofList rest :: written).IsChain KeepsBraces := by
  rw [List.isChain_cons] at hchain ⊢
  refine ⟨fun next hnext hends => hchain.1 next hnext ?_, hchain.2⟩
  rw [EndsInBrace, String.toList_ofList] at hends
  rw [EndsInBrace, h, List.getLast?_cons, hends]
  rfl

/-- From any point of a line on, one pass removes the inserted lines and nothing else. -/
theorem DamagedBy.repairPass_eq {written damaged : List String} {count : Nat}
    (h : DamagedBy written damaged count) (hflat : ∀ line ∈ written, IsFlat line) {first : String}
    (hfirst : IsFlat first) (hchain : (first :: written).IsChain KeepsBraces) :
    repairPass (first.toList ++ behindFeeds damaged) =
      (first.toList ++ behindFeeds written, count) := by
  induction h generalizing first with
  | nil =>
      rw [repairPass_append hfirst (fun _ hstart => by cases hstart.length_le), behindFeeds,
        List.flatMap_nil, repairPass_nil]
  | @keep line written damaged count h ih =>
      rw [List.forall_mem_cons] at hflat
      rw [List.isChain_cons_cons] at hchain
      have hend : first.toList.getLast? = some '\x7d' →
          ¬ '\n' :: mappingStart <+: behindFeeds (line :: damaged) := by
        intro hbrace hstart
        apply hchain.1 hbrace
        exact mapsTable_of_prefix (head?_behindFeeds damaged) (List.cons_prefix_cons.1 hstart).2
      rw [repairPass_append hfirst hend, behindFeeds_cons, repairPass_feed,
        ih hflat.2 hflat.1 hchain.2]
      rfl
  | @insert table next hname hquote hnext written damaged count h ih =>
      obtain ⟨rest, hrest⟩ := List.head?_eq_some_iff.1 hnext
      rw [List.forall_mem_cons, List.forall_mem_cons] at hflat
      have hend : first.toList.getLast? = some '\x7d' →
          ¬ '\n' :: mappingStart <+:
            behindFeeds ("\x7d" :: tableLine table :: next :: damaged) := by
        rintro - ⟨later, heq⟩
        cases (List.cons.inj (List.cons.inj heq).2).1
      -- the scan goes on behind the brace that begins the next line
      have hbehind :=
        ih hflat.2.2 (isFlat_rest hrest hflat.2.1) (isChain_rest hrest hchain.tail.tail)
      rw [String.toList_ofList] at hbehind
      have hfound := repairPass_found hname hquote (rest ++ behindFeeds damaged)
      have htext : behindFeeds ("\x7d" :: tableLine table :: next :: damaged) =
          '\n' :: '\x7d' :: '\n' :: ((tableLine table).toList ++
            '\n' :: '\x7d' :: (rest ++ behindFeeds damaged)) := by
        simp [behindFeeds_cons, hrest]
      rw [repairPass_append hfirst hend, htext, repairPass_feed, hfound, hbehind]
      simp [behindFeeds_cons, hrest]

/-! ### Whole documents -/

theorem toList_intercalate {written : List String} (h : written ≠ []) :
    '\n' :: (String.intercalate "\n" written).toList = behindFeeds written := by
  induction written with
  | nil => exact absurd rfl h
  | cons line rest ih =>
      cases rest with
      | nil => simp [behindFeeds]
      | cons next others =>
          rw [String.intercalate_cons_cons, behindFeeds_cons, ← ih (List.cons_ne_nil _ _)]
          simp

theorem behindFeeds_linesOf (text : String) : behindFeeds (linesOf text) = '\n' :: text.toList := by
  unfold linesOf behindFeeds
  rw [List.flatMap_map]
  generalize text.toList = chars
  induction chars with
  | nil => rfl
  | cons c rest ih =>
      cases hpieces : Text.split (· == '\n') rest with
      | nil => exact absurd hpieces (Text.split_ne_nil _ rest)
      | cons piece pieces =>
          by_cases hfeed : c = '\n'
          · simp_all [Text.split]
          · simp_all [Text.split]

/-- A document with the line feeds between its lines is what its lines were taken from. -/
theorem intercalate_linesOf (text : String) : String.intercalate "\n" (linesOf text) = text := by
  have hlines : linesOf text ≠ [] := by simp [linesOf, Text.split_ne_nil]
  have hchars := toList_intercalate hlines
  rw [behindFeeds_linesOf] at hchars
  exact String.toList_inj.1 (List.cons.inj hchars).2

/-- A pass that leaves no brace before a mapping line is the only one. -/
theorem repair_of_repairPass {damaged text : String} {count : Nat}
    (hpass : repairPass damaged.toList = (text.toList, count))
    (h : ¬ '\x7d' :: '\n' :: mappingStart <:+: text.toList) (hzero : count = 0 → damaged = text) :
    repair damaged = ⟨text, count⟩ := by
  have htext : repairText damaged.toList = (text.toList, count) := by
    rw [repairText]
    split
    · rename_i heq
      rw [hpass] at heq
      cases heq
      rw [hzero rfl]
    · rename_i shorter more heq
      rw [hpass] at heq
      cases heq
      dsimp only
      rw [repairText_eq_self h]
      rfl
  rw [repair, htext, String.ofList_toList]

/-- The line at the place maps a table whose name contains no quote, and a brace begins the line
behind it. -/
def MapsAt (written : List String) (place : Nat) : Prop :=
  ∃ table next, table ≠ "" ∧ '"' ∉ table.toList ∧ BeginsWithBrace next ∧
    written[place]? = some (tableLine table) ∧ written[place + 1]? = some next

/-- A line, with one that consists of a brace before it when its place is one of those given. -/
def bracedAt (places : Finset Nat) (entry : String × Nat) : List String :=
  if entry.2 ∈ places then ["\x7d", entry.1] else [entry.1]

/-- The lines with a line that consists of a brace inserted before each of the places. -/
def withStrayBraces (places : Finset Nat) (written : List String) : List String :=
  written.zipIdx.flatMap (bracedAt places)

theorem not_beginsWithBrace_tableLine (table : String) : ¬ BeginsWithBrace (tableLine table) := by
  simp [BeginsWithBrace, tableLine]

theorem MapsAt.lt_length {written : List String} {place : Nat} (h : MapsAt written place) :
    place + 1 < written.length := by
  obtain ⟨_, _, _, _, _, _, hnext⟩ := h
  exact (List.getElem?_eq_some_iff.1 hnext).1

theorem MapsAt.of_cons {line : String} {rest : List String} {place start : Nat}
    (h : MapsAt (line :: rest) (place - start)) (hle : start + 1 ≤ place) :
    MapsAt rest (place - (start + 1)) := by
  rw [show place - start = place - (start + 1) + 1 by omega] at h
  exact h

theorem filter_le_of_notMem {places : Finset Nat} {start : Nat} (h : start ∉ places) :
    places.filter (start ≤ ·) = places.filter (start + 1 ≤ ·) := by
  apply Finset.filter_congr
  intro place hplace
  have hne : place ≠ start := fun heq => h (heq ▸ hplace)
  omega

theorem card_filter_le_of_mem {places : Finset Nat} {start : Nat} (h : start ∈ places) :
    (places.filter (start ≤ ·)).card = (places.filter (start + 1 ≤ ·)).card + 1 := by
  have hinsert : places.filter (start ≤ ·) = insert start (places.filter (start + 1 ≤ ·)) := by
    ext place
    simp only [Finset.mem_filter, Finset.mem_insert]
    constructor
    · rintro ⟨hplace, hle⟩
      exact hle.eq_or_lt.imp Eq.symm fun hlt => ⟨hplace, hlt⟩
    · rintro (rfl | ⟨hplace, hle⟩)
      · exact ⟨h, le_rfl⟩
      · exact ⟨hplace, Nat.le_of_succ_le hle⟩
  rw [hinsert, Finset.card_insert_of_notMem (by simp)]

/-- The lines from one place on are damaged at the places that are left. -/
theorem damagedBy_zipIdx {places : Finset Nat} (written : List String) (start : Nat)
    (h : ∀ place ∈ places, start ≤ place → MapsAt written (place - start)) :
    DamagedBy written ((written.zipIdx start).flatMap (bracedAt places))
      (places.filter (start ≤ ·)).card := by
  induction written using List.twoStepInduction generalizing start with
  | nil =>
      have hnone : ∀ place ∈ places, ¬ start ≤ place := fun place hplace hle => by
        simpa using (h place hplace hle).lt_length
      rw [Finset.filter_false_of_mem hnone]
      exact DamagedBy.nil
  | singleton line =>
      have hnone : ∀ place ∈ places, ¬ start ≤ place := fun place hplace hle => by
        simpa using (h place hplace hle).lt_length
      have hstart : start ∉ places := fun hmem => hnone start hmem le_rfl
      rw [Finset.filter_false_of_mem hnone]
      simpa [bracedAt, hstart] using DamagedBy.nil.keep line
  | cons_cons line next rest ih ihnext =>
      have hbehind : ∀ place ∈ places, start + 1 ≤ place →
          MapsAt (next :: rest) (place - (start + 1)) := fun place hplace hle =>
        (h place hplace (Nat.le_of_succ_le hle)).of_cons hle
      rw [List.zipIdx_cons, List.flatMap_cons]
      by_cases hstart : start ∈ places
      · have hmaps := h start hstart le_rfl
        rw [Nat.sub_self] at hmaps
        obtain ⟨table, _, hname, hquote, hbrace, hline, hnext⟩ := hmaps
        obtain rfl := Option.some.inj hline
        obtain rfl := Option.some.inj hnext
        -- the line behind a mapping line maps no table itself
        have hother : start + 1 ∉ places := by
          intro hmem
          obtain ⟨other, _, _, _, _, hmapping, _⟩ := hbehind (start + 1) hmem le_rfl
          rw [Nat.sub_self] at hmapping
          obtain rfl := Option.some.inj hmapping
          exact not_beginsWithBrace_tableLine other hbrace
        have hrest := ih (start + 1 + 1) fun place hplace hle =>
          (hbehind place hplace (Nat.le_of_succ_le hle)).of_cons hle
        rw [card_filter_le_of_mem hstart, filter_le_of_notMem hother, List.zipIdx_cons,
          List.flatMap_cons, bracedAt, if_pos hstart, bracedAt, if_neg hother]
        exact hrest.insert hname hquote hbrace
      · rw [filter_le_of_notMem hstart, bracedAt, if_neg hstart]
        exact (ihnext next (start + 1) hbehind).keep line

theorem damagedBy_withStrayBraces {places : Finset Nat} {written : List String}
    (h : ∀ place ∈ places, MapsAt written place) :
    DamagedBy written (withStrayBraces places written) places.card := by
  have hdamaged := damagedBy_zipIdx written 0 fun place hplace _ => h place hplace
  rw [Finset.filter_true_of_mem fun place _ => Nat.zero_le place] at hdamaged
  exact hdamaged

theorem withStrayBraces_empty (written : List String) : withStrayBraces ∅ written = written := by
  have hkept : bracedAt ∅ = fun entry => [entry.1] := by
    funext entry
    simp [bracedAt]
  rw [withStrayBraces, hkept, ← List.map_eq_flatMap, List.zipIdx_map_fst]

theorem DamagedBy.ne_nil {written damaged : List String} {count : Nat}
    (h : DamagedBy written damaged count) (hwritten : written ≠ []) : damaged ≠ [] := by
  cases h with
  | nil => exact hwritten
  | keep | insert => exact List.cons_ne_nil _ _

/-- One pass over a damaged text gives back the text that its lines were taken from. -/
theorem DamagedBy.repairPass_intercalate {text : String} {damaged : List String} {count : Nat}
    (h : DamagedBy (linesOf text) damaged count) (hchain : (linesOf text).IsChain KeepsBraces) :
    repairPass (String.intercalate "\n" damaged).toList = (text.toList, count) := by
  have hfirst : IsFlat "" := by decide
  have hstart : ("" :: linesOf text).IsChain KeepsBraces :=
    List.isChain_cons.2 ⟨fun _ _ hends => absurd hends (by decide), hchain⟩
  have hpass := h.repairPass_eq (fun _ hline => isFlat_of_mem_linesOf hline) hfirst hstart
  have hlines : linesOf text ≠ [] := by simp [linesOf, Text.split_ne_nil]
  rw [behindFeeds_linesOf, ← toList_intercalate (h.ne_nil hlines), String.toList_empty,
    List.nil_append, List.nil_append, repairPass_feed, Prod.mk.injEq] at hpass
  exact Prod.ext (List.cons.inj hpass.1).2 hpass.2

theorem toList_ofLines (written : List String) :
    '\n' :: (ofLines written).toList = behindFeeds written ++ ['\n'] := by
  induction written with
  | nil => rfl
  | cons line rest ih =>
      rw [toList_ofLines_cons, ih, behindFeeds_cons, List.cons_append, List.append_assoc]

/-- In a text no brace stands before a mapping line if none does in its lines. -/
theorem not_infix_of_isChain {text : String} (hchain : (linesOf text).IsChain KeepsBraces) :
    ¬ '\x7d' :: '\n' :: mappingStart <:+: text.toList := by
  intro hinfix
  have hlines := toList_ofLines (linesOf text)
  rw [behindFeeds_linesOf, List.cons_append] at hlines
  apply not_infix_ofLines (fun _ hline => isFlat_of_mem_linesOf hline) hchain
  rw [(List.cons.inj hlines).2]
  exact hinfix.trans (List.prefix_append _ _).isInfix

/-- Repair undoes the legacy defect and nothing else: in a document without a brace before a mapping
line, a line with a brace is inserted before any of the mapping lines that a brace follows, and
repair gives the document back with the number of the inserted lines. -/
theorem repair_withStrayBraces {text : String} {places : Finset Nat}
    (hchain : (linesOf text).IsChain KeepsBraces)
    (hplaces : ∀ place ∈ places, MapsAt (linesOf text) place) :
    repair (String.intercalate "\n" (withStrayBraces places (linesOf text))) =
      ⟨text, places.card⟩ := by
  have hdamaged := damagedBy_withStrayBraces hplaces
  have hpass := hdamaged.repairPass_intercalate hchain
  apply repair_of_repairPass hpass (not_infix_of_isChain hchain)
  intro hzero
  rw [Finset.card_eq_zero.1 hzero, withStrayBraces_empty, intercalate_linesOf]

/-- A document with two models, of which the second one has two mapping lines: the brace behind the
first of these does not end its line. -/
def mappedThrice : String :=
  "model A \x7b\n  @@map(\"a\")\n\x7d\n\n"
    ++ "model B \x7b\n  @@map(\"b\")\n\x7d // b\n  @@map(\"c\")\n\x7d\n"

/-- The two neighbouring mapping lines are damaged, and the other one is not. -/
theorem repair_withStrayBraces_neighbours :
    repair (String.intercalate "\n" (withStrayBraces {5, 7} (linesOf mappedThrice))) =
      ⟨mappedThrice, 2⟩ := by
  have hplaces : ∀ place ∈ ({5, 7} : Finset Nat), MapsAt (linesOf mappedThrice) place := by
    intro place hplace
    obtain rfl | rfl := by simpa using hplace
    · exact ⟨"b", "\x7d // b", by decide, by decide, by decide, by decide +kernel,
        by decide +kernel⟩
    · exact ⟨"c", "\x7d", by decide, by decide, by decide, by decide +kernel, by decide +kernel⟩
  exact repair_withStrayBraces (by decide +kernel) hplaces

end TableModels.Document
