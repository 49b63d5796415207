import TableModels.Proofs.Column.Listing

/-!
# What a run of tokens denotes

A run is a literal as a whole or it denotes its own text. `IsLiteral` says which runs are literals
and of which values; `runValue_of_isLiteral` and `runValue_of_not_isLiteral` say that the reader
obeys it. What a run denotes does not depend on where it stands: byte offsets and the white space
in front of its first token may change.

## Implementation notes

Two runs that differ in offsets alone have the same image under `Token.unplaced`, and the images of
a concatenation split like the concatenation itself. The induction is on the length of the run, as
the runs inside of brackets are no subterms of the run around them.
-/

namespace TableModels.Column

/-- The runs that are literals as a whole, with the values that they denote. -/
inductive IsLiteral : List Token → Value → Prop
  | string {token : Token} {value : String} (h : token.kind = .string value) :
      IsLiteral [token] (.string value)
  | number {token : Token} {literal : String} (h : token.kind = .number literal) :
      IsLiteral [token] (.number literal)
  | word {token : Token} {name : String} (h : token.kind = .ident name) :
      IsLiteral [token] (wordValue name)
  | negative {minus token : Token} {literal : String} (hminus : minus.isPunct '-' = true)
      (h : token.kind = .number literal) : IsLiteral [minus, token] (.number ("-" ++ literal))
  | object {brace : Token} {inside : List Token} {entries : List (String × Value)}
      (hbrace : brace.isPunct '\x7b' = true) (h : IsListing '\x7d' IsEntry inside entries) :
      IsLiteral (brace :: inside) (.object entries)
  | array {bracket : Token} {inside : List Token} {items : List Value}
      (hbracket : bracket.isPunct '[' = true) (h : IsListing ']' IsItem inside items) :
      IsLiteral (bracket :: inside) (.array items)

/-- The token without its place. -/
def Token.unplaced (token : Token) : Token :=
  { token with offset := 0 }

/-- Two lists of tokens that differ in their places alone. -/
def SameTokens (first second : List Token) : Prop :=
  first.map Token.unplaced = second.map Token.unplaced

/-! ### The two cases of a run -/

theorem runValue_of_isLiteral {run : List Token} {value : Value} (h : IsLiteral run value) :
    runValue run = value := by
  cases h with
  | string h => rw [runValue.eq_def]; simp [h]
  | number h => rw [runValue.eq_def]; simp [h]
  | word h => rw [runValue.eq_def]; simp [h]
  | @negative minus token literal hminus h =>
      obtain ⟨kind, offset, gap, text⟩ := token
      subst h
      rw [runValue.eq_def]
      simp [isPunct_eq_true_iff.1 hminus]
  | @object brace inside entries hbrace h =>
      have hread : objectEntries inside = some (entries, []) :=
        objectEntries_eq_some_iff.2 ⟨inside, by simp, h⟩
      rw [runValue.eq_def]
      simp [isPunct_eq_true_iff.1 hbrace, hread]
  | @array bracket inside items hbracket h =>
      have hread : arrayItems inside = some (items, []) :=
        arrayItems_eq_some_iff.2 ⟨inside, by simp, h⟩
      rw [runValue.eq_def]
      simp [isPunct_eq_true_iff.1 hbracket, hread]

theorem runValue_of_not_isLiteral {run : List Token} (h : ∀ value, ¬ IsLiteral run value) :
    runValue run = .verbatim (String.ofList (runText run)) := by
  rw [runValue.eq_def]
  cases run with
  | nil => rfl
  | cons token rest =>
      simp only
      split
      · rename_i hkind
        exact absurd (.string hkind) (h _)
      · rename_i hkind
        exact absurd (.number hkind) (h _)
      · rename_i hkind
        exact absurd (.word hkind) (h _)
      · rename_i hkind
        exact absurd (.negative (isPunct_eq_true_iff.2 hkind) rfl) (h _)
      · rename_i hkind
        split
        · rename_i entries hread
          obtain ⟨used, heq, hused⟩ := objectEntries_eq_some_iff.1 hread
          rw [List.append_nil] at heq
          exact absurd (.object (isPunct_eq_true_iff.2 hkind) (heq ▸ hused)) (h _)
        · rfl
      · rename_i hkind
        split
        · rename_i items hread
          obtain ⟨used, heq, hused⟩ := arrayItems_eq_some_iff.1 hread
          rw [List.append_nil] at heq
          exact absurd (.array (isPunct_eq_true_iff.2 hkind) (heq ▸ hused)) (h _)
        · rfl
      · rfl

/-- A run denotes itself as a literal, or its own text. -/
theorem isLiteral_or_verbatim (run : List Token) :
    IsLiteral run (runValue run) ∨
      (∀ value, ¬ IsLiteral run value) ∧
        runValue run = .verbatim (String.ofList (runText run)) := by
  by_cases h : ∃ value, IsLiteral run value
  · obtain ⟨value, hvalue⟩ := h
    rw [runValue_of_isLiteral hvalue]
    exact Or.inl hvalue
  · have hnone : ∀ value, ¬ IsLiteral run value := fun value hvalue => h ⟨value, hvalue⟩
    exact Or.inr ⟨hnone, runValue_of_not_isLiteral hnone⟩

/-! ### Lists whose places change -/

theorem SameTokens.symm {first second : List Token} (h : SameTokens first second) :
    SameTokens second first :=
  Eq.symm h

theorem SameTokens.length_eq {first second : List Token} (h : SameTokens first second) :
    first.length = second.length := by
  simpa using congrArg List.length h

/-- Tokens that differ in their places are alike in everything else. -/
theorem unplaced_eq_iff {token other : Token} :
    token.unplaced = other.unplaced ↔
      token.kind = other.kind ∧ token.gap = other.gap ∧ token.text = other.text := by
  cases token
  cases other
  simp [Token.unplaced]

theorem isPunct_congr {token other : Token} (h : token.kind = other.kind) (c : Char) :
    token.isPunct c = other.isPunct c := by
  rw [Token.isPunct, Token.isPunct, h]

theorem sameTokens_cons_iff {token : Token} {rest others : List Token} :
    SameTokens (token :: rest) others ↔
      ∃ other later, others = other :: later ∧ token.unplaced = other.unplaced ∧
        SameTokens rest later := by
  simp only [SameTokens, List.map_cons]
  rw [eq_comm, List.map_eq_cons_iff]
  constructor
  · rintro ⟨other, later, rfl, hfirst, hrest⟩
    exact ⟨other, later, rfl, hfirst.symm, hrest.symm⟩
  · rintro ⟨other, later, rfl, hfirst, hrest⟩
    exact ⟨other, later, rfl, hfirst.symm, hrest.symm⟩

theorem sameTokens_append_iff {first second others : List Token} :
    SameTokens (first ++ second) others ↔
      ∃ start later, others = start ++ later ∧ SameTokens first start ∧
        SameTokens second later := by
  simp only [SameTokens, List.map_append]
  rw [eq_comm, List.map_eq_append_iff]
  constructor
  · rintro ⟨start, later, rfl, hfirst, hsecond⟩
    exact ⟨start, later, rfl, hfirst.symm, hsecond.symm⟩
  · rintro ⟨start, later, rfl, hfirst, hsecond⟩
    exact ⟨start, later, rfl, hfirst.symm, hsecond.symm⟩

theorem depthAfter_map_unplaced (depth : Nat) (run : List Token) :
    depthAfter depth (run.map Token.unplaced) = depthAfter depth run := by
  induction run generalizing depth with
  | nil => rfl
  | cons token rest ih =>
      have hopens : token.unplaced.opens = token.opens := rfl
      have hcloses : token.unplaced.closes = token.closes := rfl
      have hcomma : token.unplaced.isPunct ',' = token.isPunct ',' := rfl
      cases depth <;> simp only [List.map_cons, depthAfter, hopens, hcloses, hcomma, ih]

theorem SameTokens.isValueRun {run other : List Token} (h : SameTokens run other)
    (hrun : IsValueRun run) : IsValueRun other := by
  obtain ⟨hne, hdepth⟩ := isValueRun_iff.1 hrun
  have hlength := h.length_eq
  refine isValueRun_iff.2 ⟨?_, ?_⟩
  · rintro rfl
    exact hne (List.eq_nil_of_length_eq_zero (by simpa using hlength))
  · rw [← depthAfter_map_unplaced, ← h, depthAfter_map_unplaced]
    exact hdepth

/-- A list stays a list when its places change, provided that its elements stay elements. -/
theorem IsListing.congr {α : Type} {close : Char} {part : List Token → α → Prop}
    {used others : List Token} {elements : List α} (h : IsListing close part used elements)
    (hsame : SameTokens used others)
    (hpart : ∀ {run other element}, run.length < used.length → SameTokens run other →
      part run element → part other element) :
    IsListing close part others elements := by
  induction h generalizing others with
  | close hclose =>
      obtain ⟨other, later, rfl, htoken, hrest⟩ := sameTokens_cons_iff.1 hsame
      obtain rfl := List.map_eq_nil_iff.1 hrest.symm
      exact .close (by rwa [← isPunct_congr (unplaced_eq_iff.1 htoken).1])
  | @last run element token hrun hclose =>
      obtain ⟨start, later, rfl, hstart, hlater⟩ := sameTokens_append_iff.1 hsame
      obtain ⟨other, rest, rfl, htoken, hrest⟩ := sameTokens_cons_iff.1 hlater
      obtain rfl := List.map_eq_nil_iff.1 hrest.symm
      refine .last (hpart ?_ hstart hrun) (by rwa [← isPunct_congr (unplaced_eq_iff.1 htoken).1])
      simp
  | @more run element comma rest elements hrun hcomma hrest ih =>
      obtain ⟨start, later, rfl, hstart, hlater⟩ := sameTokens_append_iff.1 hsame
      obtain ⟨other, others, rfl, htoken, hothers⟩ := sameTokens_cons_iff.1 hlater
      refine .more (hpart ?_ hstart hrun) (by rwa [← isPunct_congr (unplaced_eq_iff.1 htoken).1])
        (ih hothers fun hlt => hpart ?_)
      · simp only [List.length_append, List.length_cons]
        omega
      · simp only [List.length_append, List.length_cons]
        omega

/-! ### What a run denotes does not depend on its places -/

theorem IsItem.congr {run other : List Token} {value : Value} (h : IsItem run value)
    (hsame : SameTokens run other) (hvalue : runValue run = runValue other) :
    IsItem other value :=
  ⟨hsame.isValueRun h.1, h.2.trans hvalue⟩

theorem IsEntry.congr {run other : List Token} {entry : String × Value} (h : IsEntry run entry)
    (hsame : SameTokens run other)
    (hvalue : ∀ {inside inner}, inside.length < run.length → SameTokens inside inner →
      runValue inside = runValue inner) : IsEntry other entry := by
  obtain ⟨key, colon, inside, rfl, hkey, hcolon, hitem⟩ := h
  obtain ⟨key', later, rfl, hsamekey, hlater⟩ := sameTokens_cons_iff.1 hsame
  obtain ⟨colon', inner, rfl, hsamecolon, hinner⟩ := sameTokens_cons_iff.1 hlater
  refine ⟨key', colon', inner, rfl, ?_, ?_, hitem.congr hinner (hvalue ?_ hinner)⟩
  · rw [← (unplaced_eq_iff.1 hsamekey).1]
    exact hkey
  · rw [← isPunct_congr (unplaced_eq_iff.1 hsamecolon).1]
    exact hcolon
  · simp only [List.length_cons]
    omega

/-- A literal stays a literal when the runs inside of it go on denoting what they denote. -/
theorem IsLiteral.congr {token other : Token} {rest others : List Token} {value : Value}
    (h : IsLiteral (token :: rest) value) (hkind : token.kind = other.kind)
    (hrest : SameTokens rest others)
    (hvalue : ∀ {inside inner}, inside.length < rest.length → SameTokens inside inner →
      runValue inside = runValue inner) : IsLiteral (other :: others) value := by
  cases h with
  | string h =>
      obtain rfl := List.map_eq_nil_iff.1 hrest.symm
      exact .string (hkind ▸ h)
  | number h =>
      obtain rfl := List.map_eq_nil_iff.1 hrest.symm
      exact .number (hkind ▸ h)
  | word h =>
      obtain rfl := List.map_eq_nil_iff.1 hrest.symm
      exact .word (hkind ▸ h)
  | negative hminus h =>
      obtain ⟨digits, later, rfl, hdigits, hlater⟩ := sameTokens_cons_iff.1 hrest
      obtain rfl := List.map_eq_nil_iff.1 hlater.symm
      exact .negative (by rwa [← isPunct_congr hkind]) ((unplaced_eq_iff.1 hdigits).1 ▸ h)
  | object hbrace h =>
      refine .object (by rwa [← isPunct_congr hkind]) (h.congr hrest ?_)
      intro run other element hlt hsame hentry
      exact hentry.congr hsame fun hlt' => hvalue (Nat.lt_trans hlt' hlt)
  | array hbracket h =>
      refine .array (by rwa [← isPunct_congr hkind]) (h.congr hrest ?_)
      intro run other element hlt hsame hitem
      exact hitem.congr hsame (hvalue hlt hsame)

theorem runText_congr {token other : Token} {rest others : List Token}
    (htext : token.text = other.text) (hrest : SameTokens rest others) :
    runText (token :: rest) = runText (other :: others) := by
  have hlater : (rest.flatMap fun later => later.gap ++ later.text) =
      others.flatMap fun later => later.gap ++ later.text := by
    have hmap := congrArg (List.flatMap fun later : Token => later.gap ++ later.text) hrest
    simpa only [List.flatMap_map, Token.unplaced] using hmap
  rw [runText, runText, htext, hlater]

/-- A run denotes the same wherever it stands and whatever white space is in front of it. -/
theorem runValue_cons_congr {token other : Token} {rest others : List Token}
    (hkind : token.kind = other.kind) (htext : token.text = other.text)
    (hrest : SameTokens rest others) :
    runValue (token :: rest) = runValue (other :: others) := by
  induction hlength : rest.length using Nat.strongRecOn
    generalizing token other rest others with
  | ind length ih =>
      subst hlength
      have hinner : ∀ {inside inner : List Token}, inside.length < rest.length →
          SameTokens inside inner → runValue inside = runValue inner := by
        intro inside inner hlt hsame
        cases inside with
        | nil =>
            obtain rfl := List.map_eq_nil_iff.1 hsame.symm
            rfl
        | cons first later =>
            obtain ⟨first', later', rfl, hfirst, hlater⟩ := sameTokens_cons_iff.1 hsame
            obtain ⟨hkind', -, htext'⟩ := unplaced_eq_iff.1 hfirst
            exact ih later.length (Nat.lt_of_succ_lt hlt) hkind' htext' hlater rfl
      rcases isLiteral_or_verbatim (token :: rest) with hliteral | ⟨hnone, hvalue⟩
      · exact (runValue_of_isLiteral (hliteral.congr hkind hrest hinner)).symm
      · have hnone' : ∀ value, ¬ IsLiteral (other :: others) value := by
          intro value hliteral
          refine hnone value (hliteral.congr hkind.symm hrest.symm ?_)
          intro inside inner hlt hsame
          rw [hinner (hrest.length_eq ▸ hsame.length_eq ▸ hlt) hsame.symm]
        rw [hvalue, runValue_of_not_isLiteral hnone', runText_congr htext hrest]

theorem SameTokens.runValue_eq {run other : List Token} (h : SameTokens run other) :
    runValue run = runValue other := by
  cases run with
  | nil =>
      obtain rfl := List.map_eq_nil_iff.1 h.symm
      rfl
  | cons token rest =>
      obtain ⟨token', rest', rfl, htoken, hrest⟩ := sameTokens_cons_iff.1 h
      obtain ⟨hkind, -, htext⟩ := unplaced_eq_iff.1 htoken
      exact runValue_cons_congr hkind htext hrest

end TableModels.Column
