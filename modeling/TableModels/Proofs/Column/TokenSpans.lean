import TableModels.Proofs.Column.Lexing

/-!
# Where the tokens of a text stand

A text is cut into tokens without loss. The tokens stand one behind the other between boundaries of
characters, each is the text between its two byte offsets, and what is outside of all of them is
white space.

## Implementation notes

`Scans` counts characters in front of a token by their bytes, so everything about offsets is
obtained from cuts of the list of characters. `isValid_of_append` and `slice?_append` carry it over
to the bytes of the text.
-/

namespace TableModels.Column

/-! ### Byte offsets -/

theorem byteLength_nil : byteLength [] = 0 := rfl

theorem byteLength_cons (c : Char) (rest : List Char) :
    byteLength (c :: rest) = c.utf8Size + byteLength rest := rfl

theorem byteLength_pos {text : List Char} (h : text ≠ []) : 0 < byteLength text := by
  cases text with
  | nil => exact absurd rfl h
  | cons c rest => exact Nat.add_pos_left c.utf8Size_pos _

theorem utf8ByteSize_ofList (text : List Char) :
    (String.ofList text).utf8ByteSize = byteLength text := by
  induction text with
  | nil => rfl
  | cons c rest ih =>
      rw [String.ofList_cons, String.utf8ByteSize_append, String.utf8ByteSize_singleton, ih]
      rfl

theorem byteLength_toList (text : String) : byteLength text.toList = text.utf8ByteSize := by
  rw [← utf8ByteSize_ofList, String.ofList_toList]

/-- Of two cuts of a text, the one that is not behind the other by bytes is not behind it. -/
theorem exists_eq_append_of_byteLength_le {first later second other : List Char}
    (hcut : first ++ later = second ++ other) (hle : byteLength first ≤ byteLength second) :
    ∃ more, second = first ++ more ∧ later = more ++ other := by
  rcases List.append_eq_append_iff.1 hcut with h | ⟨more, rfl, rfl⟩
  · exact h
  · have hnil : more = [] := by
      by_contra hne
      have hpos := byteLength_pos hne
      rw [byteLength_append] at hle
      omega
    subst hnil
    exact ⟨[], by rw [List.append_nil, List.append_nil], rfl⟩

/-- The characters in front of a cut reach up to a boundary between characters. -/
theorem isValid_of_append {text : String} {before after : List Char}
    (h : text.toList = before ++ after) :
    (⟨byteLength before⟩ : String.Pos.Raw).IsValid text := by
  rw [String.Pos.Raw.isValid_iff_exists_append]
  refine ⟨String.ofList before, String.ofList after, ?_, ?_⟩
  · rw [← String.ofList_append, ← h, String.ofList_toList]
  · rw [← utf8ByteSize_ofList]
    rfl

/-- The part of a text between two byte offsets, which must be boundaries between characters and in
order. -/
def slice? (text : String) (start stop : Nat) : Option String :=
  if h : (⟨start⟩ : String.Pos.Raw).IsValid text ∧ (⟨stop⟩ : String.Pos.Raw).IsValid text ∧
      start ≤ stop then
    some (text.slice ⟨⟨start⟩, h.1⟩ ⟨⟨stop⟩, h.2.1⟩ h.2.2).copy
  else
    none

theorem slice?_append {text : String} {before part after : List Char}
    (h : text.toList = before ++ part ++ after) :
    slice? text (byteLength before) (byteLength before + byteLength part) =
      some (String.ofList part) := by
  have hstart : (⟨byteLength before⟩ : String.Pos.Raw).IsValid text :=
    isValid_of_append (h.trans (List.append_assoc ..))
  have hstop : (⟨byteLength before + byteLength part⟩ : String.Pos.Raw).IsValid text := by
    rw [← byteLength_append]
    exact isValid_of_append h
  have hbytes : text.toByteArray = (String.ofList before).toByteArray ++
      ((String.ofList part).toByteArray ++ (String.ofList after).toByteArray) := by
    rw [← String.toByteArray_append, ← String.toByteArray_append, ← String.ofList_append,
      ← String.ofList_append, ← List.append_assoc, ← h, String.ofList_toList]
  have hsize (characters : List Char) :
      byteLength characters = (String.ofList characters).toByteArray.size :=
    (utf8ByteSize_ofList characters).symm
  rw [slice?, dif_pos ⟨hstart, hstop, Nat.le_add_right ..⟩, Option.some.injEq,
    ← String.toByteArray_inj, String.toByteArray_copy_slice, hbytes]
  dsimp only
  rw [hsize, hsize]
  calc
    _ = ((String.ofList part).toByteArray ++ (String.ofList after).toByteArray).extract 0
        (String.ofList part).toByteArray.size := ByteArray.extract_append_size_add (i := 0)
    _ = (String.ofList part).toByteArray := ByteArray.extract_append_eq_left rfl

/-! ### Tokens -/

theorem Token.IsReadAt.text_ne_nil {token : Token} {start : Nat} {follow : List Char}
    (h : token.IsReadAt start follow) : token.text ≠ [] := by
  obtain ⟨first, rest, htext, -⟩ := h.lexeme
  rw [htext]
  exact List.cons_ne_nil first rest

theorem Token.IsReadAt.offset_lt_stop {token : Token} {start : Nat} {follow : List Char}
    (h : token.IsReadAt start follow) : token.offset < token.stop :=
  Nat.lt_add_of_pos_right (byteLength_pos h.text_ne_nil)

section Scans

variable {start : Nat} {tokens front rest : List Token} {token : Token} {follow : List Char}

/-- A token is read where the tokens in front of it end. -/
theorem Scans.isReadAt (h : Scans start (front ++ token :: rest) follow) :
    token.IsReadAt (start + byteLength (spread front)) (spread rest ++ follow) :=
  (scans_append_iff.1 h).2.1

/-- A token ends where the tokens up to it end. -/
theorem Scans.stop_eq (h : Scans start (front ++ token :: rest) follow) :
    token.stop = start + byteLength (spread (front ++ [token])) := by
  rw [Token.stop, h.isReadAt.offset, spread_append, spread_cons, spread_nil, List.append_nil,
    byteLength_append, byteLength_append]
  omega

/-- No token begins before the place from which all are read. -/
theorem Scans.le_offset (h : Scans start tokens follow) (htoken : token ∈ tokens) :
    start ≤ token.offset := by
  obtain ⟨front, rest, rfl⟩ := List.append_of_mem htoken
  rw [h.isReadAt.offset]
  omega

theorem Scans.pairwise (h : Scans start tokens follow) :
    tokens.Pairwise fun first second => first.stop ≤ second.offset := by
  induction tokens generalizing start with
  | nil => exact List.Pairwise.nil
  | cons token rest ih => exact List.pairwise_cons.2 ⟨fun _ hother => h.2.le_offset hother, ih h.2⟩

/-- A character that is in no token is white space. -/
theorem Scans.isWhitespace_of_outside (h : Scans start tokens follow) (hfollow : IsBlank follow)
    {before after : List Char} {c : Char} (hcut : spread tokens ++ follow = before ++ c :: after)
    (houtside : ∀ token ∈ tokens, start + byteLength before < token.offset ∨
      token.stop ≤ start + byteLength before) : Unicode.isWhitespace c = true := by
  induction tokens generalizing start before with
  | nil =>
      rw [spread_nil, List.nil_append] at hcut
      exact hfollow c (hcut ▸ List.mem_append_right _ List.mem_cons_self)
  | cons token rest ih =>
      obtain ⟨hread, hrest⟩ := h
      rw [spread_cons, List.append_assoc] at hcut
      have hstop : token.stop = start + byteLength (token.gap ++ token.text) := by
        rw [Token.stop, hread.offset, byteLength_append, Nat.add_assoc]
      rcases houtside token List.mem_cons_self with hbefore | hbehind
      · rw [hread.offset] at hbefore
        rw [List.append_assoc] at hcut
        obtain ⟨more, hgap, hmore⟩ :=
          exists_eq_append_of_byteLength_le hcut.symm (by omega)
        cases more with
        | nil =>
            rw [hgap, List.append_nil] at hbefore
            omega
        | cons d others =>
            obtain ⟨rfl, -⟩ := List.cons.inj hmore
            apply hread.blank
            rw [hgap]
            exact List.mem_append_right _ List.mem_cons_self
      · obtain ⟨more, rfl, hmore⟩ :=
          exists_eq_append_of_byteLength_le hcut (by omega)
        apply ih hrest hmore
        intro other hother
        have hcase := houtside other (List.mem_cons_of_mem _ hother)
        rwa [byteLength_append, ← Nat.add_assoc, ← hstop] at hcase

end Scans

/-- The tokens stand one behind the other between boundaries of characters of the text, and around
them there is white space. -/
structure CutsText (text : String) (tokens : List Token) : Prop where
  nonempty : ∀ token ∈ tokens, token.offset < token.stop
  increasing : tokens.Pairwise fun first second => first.stop ≤ second.offset
  boundaries : ∀ token ∈ tokens, (⟨token.offset⟩ : String.Pos.Raw).IsValid text ∧
    (⟨token.stop⟩ : String.Pos.Raw).IsValid text
  contents : ∀ token ∈ tokens,
    slice? text token.offset token.stop = some (String.ofList token.text)
  outside : ∀ before c after, text.toList = before ++ c :: after →
    (∀ token ∈ tokens, byteLength before < token.offset ∨ token.stop ≤ byteLength before) →
      Unicode.isWhitespace c = true

/-- A token is at its place in the text. -/
theorem exists_cut_of_mem_tokens {text : List Char} {tokens : List Token} {token : Token}
    (h : tokenize text = .ok tokens) (htoken : token ∈ tokens) :
    ∃ before after start, text = before ++ token.text ++ after ∧
      byteLength before = token.offset ∧ token.IsReadAt start after := by
  obtain ⟨blank, rfl, -, hscans⟩ := tokenize_eq_ok_iff.1 h
  obtain ⟨front, rest, rfl⟩ := List.append_of_mem htoken
  have hread := hscans.isReadAt
  refine ⟨spread front ++ token.gap, spread rest ++ blank, _, ?_, ?_, hread⟩
  · rw [spread_append, spread_cons]
    simp only [List.append_assoc]
  · rw [byteLength_append, hread.offset, Nat.zero_add]

theorem cutsText_of_tokenize {text : String} {tokens : List Token}
    (h : tokenize text.toList = .ok tokens) : CutsText text tokens := by
  obtain ⟨blank, htext, hblank, hscans⟩ := tokenize_eq_ok_iff.1 h
  refine ⟨?_, hscans.pairwise, ?_, ?_, ?_⟩
  · intro token htoken
    obtain ⟨_, _, _, -, -, hread⟩ := exists_cut_of_mem_tokens h htoken
    exact hread.offset_lt_stop
  · intro token htoken
    obtain ⟨before, after, -, hcut, hoffset, -⟩ := exists_cut_of_mem_tokens h htoken
    constructor
    · rw [← hoffset]
      exact isValid_of_append (hcut.trans (List.append_assoc ..))
    · rw [Token.stop, ← hoffset, ← byteLength_append]
      exact isValid_of_append hcut
  · intro token htoken
    obtain ⟨before, after, -, hcut, hoffset, -⟩ := exists_cut_of_mem_tokens h htoken
    rw [Token.stop, ← hoffset]
    exact slice?_append hcut
  · intro before c after hcut houtside
    rw [htext] at hcut
    apply hscans.isWhitespace_of_outside hblank hcut
    simpa only [Nat.zero_add] using houtside

end TableModels.Column
