import TableModels.Proofs.Script.LineFeeds

/-!
# Comments behind a script

A line comment on a line of its own behind a script changes none of its tokens, and so nothing about
its tree, unless the script ends inside a string, a template or a block comment.

## Implementation notes

The comment begins with a line feed, which is white space. It may become a part of the white space
at the end of the script, but that is dropped just as the comment is.
-/

namespace TableModels.Script

/-! ### Where a script ends -/

/-- A block comment begins. -/
def opensComment (first : Char) (rest : List Char) : Bool :=
  first == '/' && rest.head? == some '*'

/-- What is open behind a text, unless that is a block comment. -/
def openBehind? (contexts : List Context) (slashDivides : Bool) (text : List Char) :
    Option (List Context) :=
  match text with
  | [] => some contexts
  | first :: rest =>
      match if insideLiteral contexts then none else triviaPiece? first rest with
      | some (_, extra) => openBehind? contexts slashDivides (rest.drop extra)
      | none =>
          if !insideLiteral contexts && opensComment first rest then none
          else
            let read := lexeme contexts slashDivides first rest
            let token : Token := ⟨[], read.kind, (first :: rest).take (read.extra + 1), 0⟩
            openBehind? read.contexts token.endsOperand (rest.drop read.extra)
termination_by text.length
decreasing_by
  all_goals
    simp only [List.length_cons, List.length_drop]
    omega

/-- The text ends where neither a literal nor a block comment is open. -/
def EndsOutside (contexts : List Context) (slashDivides : Bool) (text : List Char) : Prop :=
  ∃ behind ∈ openBehind? contexts slashDivides text, insideLiteral behind = false

/-! ### Trivia before a line comment -/

theorem blockCommentSize?_append {text : List Char} {size : Nat}
    (h : blockCommentSize? text = some size) :
    size ≤ text.length ∧ ∀ tail, blockCommentSize? (text ++ tail) = some size := by
  fun_induction blockCommentSize? text generalizing size with
  | case1 => cases h
  | case2 rest =>
      cases h
      exact ⟨by simp, fun tail => rfl⟩
  | case3 c rest hopen ih =>
      obtain ⟨inner, hinner, rfl⟩ := Option.map_eq_some_iff.mp h
      obtain ⟨hle, happend⟩ := ih hinner
      refine ⟨Nat.succ_le_succ hle, fun tail => ?_⟩
      rw [List.cons_append, blockCommentSize?, happend, Option.map_some]
      rintro later hstar hslash
      cases rest with
      | nil => cases hinner
      | cons d others =>
          cases hslash
          exact hopen others hstar rfl

theorem exists_eq_cons_of_append {c : Char} (hc : c ≠ '\n') {text tail later : List Char}
    (h : text ++ '\n' :: tail = c :: later) : ∃ inner, text = c :: inner := by
  cases text with
  | nil => exact absurd (List.cons.inj h).1.symm hc
  | cons d inner => exact ⟨inner, by rw [(List.cons.inj h).1]⟩

theorem triviaPiece?_blank {first : Char} (h : isBlank first = true) (rest : List Char) :
    triviaPiece? first rest = some (.space, countWhile isBlank rest) := by
  unfold triviaPiece?
  rw [if_pos h]

theorem triviaPiece?_append_of_none {first : Char} {rest : List Char}
    (h : triviaPiece? first rest = none) (hopens : opensComment first rest = false)
    (tail : List Char) : triviaPiece? first (rest ++ '\n' :: tail) = none := by
  unfold triviaPiece? at h ⊢
  split_ifs at h ⊢
  split at h
  · cases h
  · cases hopens
  · rename_i hline hblock
    split
    · rename_i htext _
      obtain ⟨inner, hrest⟩ := exists_eq_cons_of_append (by decide) htext
      exact absurd hrest (hline inner rfl)
    · rename_i htext _
      obtain ⟨inner, hrest⟩ := exists_eq_cons_of_append (by decide) htext
      exact absurd hrest (hblock inner rfl)
    · rfl

/-- A piece of trivia ends where it did, unless it is white space up to the end of the text. -/
theorem triviaPiece?_append_of_some {first : Char} {rest : List Char} {make : List Char → Trivia}
    {extra : Nat} (h : triviaPiece? first rest = some (make, extra)) :
    extra ≤ rest.length ∧ ((∀ c ∈ first :: rest, isBlank c = true) ∨
      ∀ tail, triviaPiece? first (rest ++ '\n' :: tail) = some (make, extra)) := by
  unfold triviaPiece? at h ⊢
  by_cases hblank : isBlank first = true
  · simp only [if_pos hblank] at h ⊢
    cases h
    refine ⟨countWhile_le isBlank rest, ?_⟩
    by_cases hall : (rest.takeWhile isBlank).length = rest.length
    · left
      have hrest := List.takeWhile_eq_self_iff.mp
        ((List.takeWhile_prefix isBlank).eq_of_length hall)
      exact List.forall_mem_cons.mpr ⟨hblank, hrest⟩
    · right
      intro tail
      rw [countWhile, List.takeWhile_append, if_neg hall]
      rfl
  · simp only [if_neg hblank] at h ⊢
    split at h
    · rename_i later
      cases h
      have hline := staysInside_countWhile (p := fun c => !isLineEnd c) rfl later
      refine ⟨Nat.succ_le_succ hline.le, Or.inr fun tail => ?_⟩
      simp only [List.cons_append]
      rw [hline.append]
    · rename_i later
      obtain ⟨size, hsize, hpiece⟩ := Option.map_eq_some_iff.mp h
      cases hpiece
      obtain ⟨hle, happend⟩ := blockCommentSize?_append hsize
      refine ⟨Nat.succ_le_succ hle, Or.inr fun tail => ?_⟩
      simp only [List.cons_append]
      rw [happend, Option.map_some]
    · cases h

theorem tokensFrom_comment {contexts : List Context} (hcontexts : insideLiteral contexts = false)
    {comment : List Char} (hcomment : ∀ c ∈ comment, isLineEnd c = false) (slashDivides : Bool)
    (line : Nat) (pending : List Trivia) :
    tokensFrom contexts slashDivides line pending ('/' :: '/' :: comment) = [] := by
  have hall : countWhile (fun c => !isLineEnd c) comment = comment.length := by
    rw [countWhile, List.takeWhile_eq_self_iff.mpr fun c hc => by rw [hcomment c hc]; rfl]
  have hpiece : triviaPiece? '/' ('/' :: comment) = some (.comment, comment.length + 1) := by
    rw [← hall]
    rfl
  rw [tokensFrom, hcontexts, if_neg Bool.false_ne_true, hpiece]
  dsimp only
  rw [List.drop_succ_cons, List.drop_length, tokensFrom]

/-- White space is passed at once, up to a character that is no white space. -/
theorem exists_tokensFrom_blank_append {contexts : List Context}
    (hcontexts : insideLiteral contexts = false) {blank rest : List Char}
    (hblank : ∀ c ∈ blank, isBlank c = true) (hrest : rest.takeWhile isBlank = [])
    (slashDivides : Bool) (line : Nat) (pending : List Trivia) :
    ∃ line' pending', tokensFrom contexts slashDivides line pending (blank ++ rest) =
      tokensFrom contexts slashDivides line' pending' rest := by
  cases blank with
  | nil => exact ⟨line, pending, rfl⟩
  | cons first others =>
      rw [List.forall_mem_cons] at hblank
      have hall : countWhile isBlank (others ++ rest) = others.length := by
        rw [countWhile, List.takeWhile_append_of_pos hblank.2, hrest, List.append_nil]
      have hpiece : triviaPiece? first (others ++ rest) = some (.space, others.length) := by
        rw [triviaPiece?_blank hblank.1, hall]
      rw [List.cons_append, tokensFrom, hcontexts, if_neg Bool.false_ne_true, hpiece]
      dsimp only
      rw [List.drop_left]
      exact ⟨_, _, rfl⟩

theorem tokensFrom_blank_comment {contexts : List Context}
    (hcontexts : insideLiteral contexts = false) {blank comment : List Char}
    (hblank : ∀ c ∈ blank, isBlank c = true) (hcomment : ∀ c ∈ comment, isLineEnd c = false)
    (slashDivides : Bool) (line : Nat) (pending : List Trivia) :
    tokensFrom contexts slashDivides line pending (blank ++ '/' :: '/' :: comment) = [] := by
  have hslash : ('/' :: '/' :: comment).takeWhile isBlank = [] :=
    List.takeWhile_cons_of_neg (by decide)
  obtain ⟨line', pending', hpassed⟩ :=
    exists_tokensFrom_blank_append hcontexts hblank hslash slashDivides line pending
  rw [hpassed]
  exact tokensFrom_comment hcontexts hcomment slashDivides line' pending'

theorem tokensFrom_blank {contexts : List Context} (hcontexts : insideLiteral contexts = false)
    {blank : List Char} (hblank : ∀ c ∈ blank, isBlank c = true) (slashDivides : Bool) (line : Nat)
    (pending : List Trivia) : tokensFrom contexts slashDivides line pending blank = [] := by
  obtain ⟨line', pending', hpassed⟩ := exists_tokensFrom_blank_append hcontexts hblank
    List.takeWhile_nil slashDivides line pending
  rw [List.append_nil] at hpassed
  rw [hpassed, tokensFrom]

/-- A line comment behind a text changes no token. -/
theorem tokensFrom_append_comment {contexts : List Context} {slashDivides : Bool}
    {text comment : List Char} (h : EndsOutside contexts slashDivides text)
    (hcomment : ∀ c ∈ comment, isLineEnd c = false) (line : Nat) (pending : List Trivia) :
    tokensFrom contexts slashDivides line pending (text ++ '\n' :: '/' :: '/' :: comment) =
      tokensFrom contexts slashDivides line pending text := by
  -- the induction is on what is read next, until the place is found where the text ends
  unfold EndsOutside at h
  fun_induction openBehind? contexts slashDivides text generalizing line pending with
  | case1 contexts slashDivides =>
      obtain ⟨behind, hbehind, houtside⟩ := h
      cases hbehind
      rw [tokensFrom]
      exact tokensFrom_blank_comment houtside (List.forall_mem_singleton.mpr (by decide)) hcomment
        slashDivides line pending
  | case2 contexts slashDivides first rest make extra hpiece ih =>
      split_ifs at hpiece with hcontexts
      have houtside := Bool.not_eq_true _ |>.mp hcontexts
      obtain ⟨hle, hblank | hsame⟩ := triviaPiece?_append_of_some hpiece
      · have hfeed : ∀ c ∈ first :: rest ++ ['\n'], isBlank c = true :=
          List.forall_mem_append.mpr ⟨hblank, List.forall_mem_singleton.mpr (by decide)⟩
        rw [tokensFrom_blank houtside hblank, List.append_cons]
        exact tokensFrom_blank_comment houtside hfeed hcomment slashDivides line pending
      · rw [List.cons_append, tokensFrom, tokensFrom, if_neg hcontexts, if_neg hcontexts, hsame,
          hpiece]
        dsimp only
        rw [take_cons_append hle, drop_append_of_le hle, ih h]
  | case3 contexts slashDivides first rest hpiece hopens =>
      obtain ⟨behind, hbehind, -⟩ := h
      cases hbehind
  | case4 contexts slashDivides first rest hpiece hopens read token ih =>
      have hreads : ReadsInside (lexeme contexts slashDivides first) rest := by
        apply readsInside_lexeme
        intro hends
        obtain ⟨behind, hbehind, houtside⟩ := h
        rw [hends, openBehind?] at hbehind
        cases hbehind
        exact houtside
      have hnone : (if insideLiteral contexts = true then none
          else triviaPiece? first (rest ++ '\n' :: '/' :: '/' :: comment)) = none := by
        split_ifs at hpiece ⊢ with hcontexts
        · rfl
        · apply triviaPiece?_append_of_none hpiece
          simpa [hcontexts] using hopens
      rw [dite_eq_ite] at hpiece
      rw [List.cons_append, tokensFrom, tokensFrom, hnone, hpiece]
      dsimp only
      rw [hreads.append, take_cons_append hreads.le, drop_append_of_le hreads.le]
      exact congrArg _ (ih h _ _)

/-- A script without a first line that is a comment because of its first two characters. -/
def bodyOf (text : List Char) : List Char :=
  match text with
  | '#' :: '!' :: _ => text.drop (countWhile (!isLineEnd ·) text)
  | text => text

theorem tokenize_of_ne {text : List Char} (h : ∀ rest, text ≠ '#' :: '!' :: rest) :
    tokenize text = tokensFrom [] false 1 [] text ∧ bodyOf text = text := by
  constructor
  · unfold tokenize
    split
    · exact absurd rfl (h _)
    · rfl
  · unfold bodyOf
    split
    · exact absurd rfl (h _)
    · rfl

/-- The script ends in code: neither a literal nor a block comment is open behind it. This is so
wherever a statement ends. -/
def EndsInCode (text : List Char) : Prop :=
  EndsOutside [] false (bodyOf text)

theorem tokenize_append_comment {text comment : List Char} (h : EndsInCode text)
    (hcomment : ∀ c ∈ comment, isLineEnd c = false) :
    tokenize (text ++ '\n' :: '/' :: '/' :: comment) = tokenize text := by
  by_cases hfirst : ∃ rest, text = '#' :: '!' :: rest
  · obtain ⟨rest, rfl⟩ := hfirst
    have hline := takeWhile_append_newline (p := fun c => !isLineEnd c) rfl ('#' :: '!' :: rest)
      ('/' :: '/' :: comment)
    have hle : (('#' :: '!' :: rest).takeWhile fun c => !isLineEnd c).length ≤
        ('#' :: '!' :: rest).length := countWhile_le _ _
    rw [tokenize, List.cons_append, List.cons_append, tokenize, ← List.cons_append,
      ← List.cons_append, hline]
    rw [drop_append_of_le hle]
    exact tokensFrom_append_comment h hcomment 1 _
  · rw [not_exists] at hfirst
    obtain ⟨htokens, hbody⟩ := tokenize_of_ne hfirst
    have happended : ∀ rest, text ++ '\n' :: '/' :: '/' :: comment ≠ '#' :: '!' :: rest := by
      intro rest hsame
      obtain ⟨later, rfl⟩ := exists_eq_cons_of_append (by decide) hsame
      rw [List.cons_append] at hsame
      obtain ⟨others, rfl⟩ := exists_eq_cons_of_append (by decide) (List.cons.inj hsame).2
      exact hfirst others rfl
    rw [htokens, (tokenize_of_ne happended).1]
    rw [EndsInCode, hbody] at h
    exact tokensFrom_append_comment h hcomment 1 []

/-- A line comment behind a script changes nothing about its tree. -/
theorem parse_append_comment {text comment : List Char} (h : EndsInCode text)
    (hcomment : ∀ c ∈ comment, isLineEnd c = false) :
    parse (text ++ '\n' :: '/' :: '/' :: comment) = parse text := by
  rw [parse, parse, tokenize_append_comment h hcomment]

end TableModels.Script
