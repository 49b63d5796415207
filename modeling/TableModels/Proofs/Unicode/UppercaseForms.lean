import TableModels.Proofs.Unicode.CharacterClasses

/-!
# Upper-case forms

An upper-case form has a first character, and that character is its own upper-case form. No
white space comes in: a character that is no white space has none in its upper-case form.

## Implementation notes

Runs of lower-case letters may have their images between them, as in `ĀāĂă`. So two runs are told
apart by their ends or, when both go in steps of two, by parity. Every run is compared with every
other one, which is why the comparisons are Boolean.
-/

namespace TableModels.Unicode

theorem uppercase_ne_nil (c : Char) : uppercase c ≠ [] := by
  have hall : ∀ entry ∈ uppercaseExpansions, entry.2 ≠ [] := by decide
  have hform := isUppercaseForm_uppercase c
  generalize uppercase c = form at hform
  cases hform with
  | ascii _ => exact List.cons_ne_nil _ _
  | expanded hentry => exact fun hnil => hall _ hentry (List.map_eq_nil_iff.mp hnil)
  | shifted _ _ => exact List.cons_ne_nil _ _
  | unchanged => exact List.cons_ne_nil _ _

/-! ### White space -/

theorem isWhitespace_ofNat_of_run {run : UppercaseRun} (hrun : run ∈ uppercaseRuns)
    {code image : Nat} (h : run.image? code = some image) :
    isWhitespace (Char.ofNat image) = false := by
  have hall : ∀ run ∈ uppercaseRuns, ∀ range ∈ whitespaceRanges,
      run.image + (run.last - run.first) < range.first ∨ range.last < run.image := by
    decide +kernel
  rw [isWhitespace, toNat_ofNat_of_contains (contains_of_run hrun h), Bool.eq_false_iff]
  intro hcontains
  obtain ⟨range, hrange, hfirst, hlast⟩ := CodeRange.anyContains_iff.1 hcontains
  have hends := hall run hrun range hrange
  have hbounds := UppercaseRun.bounds_of_image? h
  omega

theorem isWhitespace_ofNat_of_expansion {code : Nat} {codes : List Nat}
    (h : (code, codes) ∈ uppercaseExpansions) {image : Nat} (himage : image ∈ codes) :
    isWhitespace (Char.ofNat image) = false := by
  have hall : ∀ entry ∈ uppercaseExpansions, ∀ image ∈ entry.2,
      isWhitespace (Char.ofNat image) = false := by
    decide +kernel
  exact hall _ h image himage

theorem isWhitespace_of_mem_uppercase {c d : Char} (hc : isWhitespace c = false)
    (hd : d ∈ uppercase c) : isWhitespace d = false := by
  have hform := isUppercaseForm_uppercase c
  generalize uppercase c = form at hd hform
  cases hform with
  | ascii hascii =>
      obtain rfl := List.mem_singleton.1 hd
      have hclass : isWhitespace c = false → isWhitespace c.toUpper = false :=
        ascii_cases c hascii (by decide +kernel)
      exact hclass hc
  | expanded hentry =>
      obtain ⟨image, himage, rfl⟩ := List.mem_map.1 hd
      exact isWhitespace_ofNat_of_expansion hentry himage
  | shifted hrun himage =>
      obtain rfl := List.mem_singleton.1 hd
      exact isWhitespace_ofNat_of_run hrun himage
  | unchanged =>
      obtain rfl := List.mem_singleton.1 hd
      exact hc

/-! ### First characters -/

namespace UppercaseRun

/-- The images of the run lie before the code point or behind it. -/
def passes (run : UppercaseRun) (code : Nat) : Bool :=
  Nat.blt code run.image || Nat.blt (run.image + (run.last - run.first)) code

/-- No image of the first run belongs to the second one. -/
def isApart (run other : UppercaseRun) : Bool :=
  Nat.blt other.last run.image || Nat.blt (run.image + (run.last - run.first)) other.first ||
    Nat.beq other.step 2 && (Nat.beq run.step 2 || Nat.beq run.first run.last) &&
      !Nat.beq (run.image % 2) (other.first % 2)

variable {run other : UppercaseRun} {code image : Nat}

theorem ne_of_passes {passed : Nat} (h : run.passes passed = true)
    (himage : run.image? code = some image) : image ≠ passed := by
  have hbounds := bounds_of_image? himage
  simp only [passes, Bool.or_eq_true, Nat.blt_eq] at h
  omega

theorem image?_eq_none_of_isApart (h : run.isApart other = true)
    (himage : run.image? code = some image) : other.image? image = none := by
  simp only [isApart, Bool.or_eq_true, Bool.and_eq_true, Nat.blt_eq, Nat.beq_eq,
    Bool.not_eq_true', ← Bool.not_eq_true] at h
  obtain ⟨⟨hfirst, hlast, hstep⟩, rfl⟩ := image?_eq_some_iff.1 himage
  apply if_neg
  rintro ⟨hlow, hhigh, hother⟩
  obtain (hbehind | hbefore) | ⟨⟨htwo, hone | hone⟩, hparity⟩ := h
  · omega
  · omega
  · rw [hone] at hstep
    rw [htwo] at hother
    omega
  · rw [htwo] at hother
    omega

end UppercaseRun

/-- A code point to which the table assigns no upper-case form. -/
def HasNoImage (code : Nat) : Prop :=
  uppercaseExpansions.lookup code = none ∧ ∀ run ∈ uppercaseRuns, run.image? code = none

instance (code : Nat) : Decidable (HasNoImage code) :=
  inferInstanceAs (Decidable (_ ∧ _))

theorem hasNoImage_of_run {run : UppercaseRun} (hrun : run ∈ uppercaseRuns) {code image : Nat}
    (h : run.image? code = some image) : HasNoImage image := by
  have hruns : uppercaseRuns.all (fun run => uppercaseRuns.all run.isApart) = true := by
    decide +kernel
  have hexpansions :
      uppercaseRuns.all (fun run => uppercaseExpansions.all (run.passes ·.1)) = true := by
    decide +kernel
  have hpasses := List.all_eq_true.1 (List.all_eq_true.1 hexpansions run hrun)
  have hapart := List.all_eq_true.1 (List.all_eq_true.1 hruns run hrun)
  constructor
  · apply List.lookup_eq_none_iff.2
    intro entry hentry
    exact bne_iff_ne.2 (UppercaseRun.ne_of_passes (hpasses entry hentry) h)
  · intro other hother
    exact UppercaseRun.image?_eq_none_of_isApart (hapart other hother) h

theorem hasNoImage_of_expansion {code first : Nat} {codes : List Nat}
    (h : (code, first :: codes) ∈ uppercaseExpansions) : HasNoImage first := by
  have hall : ∀ entry ∈ uppercaseExpansions, ∀ first ∈ entry.2.head?, HasNoImage first := by
    decide +kernel
  exact hall _ h first rfl

/-- A character without an image in the table is its own upper-case form. -/
theorem uppercase_ofNat_of_hasNoImage {code : Nat}
    (hcontains : CodeRange.anyContains imageRanges code = true) (h : HasNoImage code) :
    uppercase (Char.ofNat code) = [Char.ofNat code] := by
  have hascii : ∀ code < 0x80, CodeRange.anyContains imageRanges code = true →
      (Char.ofNat code).toUpper = Char.ofNat code := by
    decide
  rw [uppercase, toNat_ofNat_of_contains hcontains]
  split
  · rename_i hsmall
    rw [hascii code hsmall hcontains]
  · rw [h.1, List.findSome?_eq_none_iff.2 h.2]
    rfl

/-- The first character of an upper-case form is its own upper-case form. -/
theorem uppercase_of_uppercase_eq_cons {c first : Char} {rest : List Char}
    (h : uppercase c = first :: rest) : uppercase first = [first] := by
  have hform := isUppercaseForm_uppercase c
  rw [h] at hform
  generalize hshape : first :: rest = form at hform
  cases hform with
  | ascii hascii =>
      obtain ⟨rfl, rfl⟩ := List.cons.inj hshape
      exact ascii_cases c hascii (by decide +kernel)
  | @expanded codes hentry =>
      cases codes with
      | nil => cases hshape
      | cons code codes =>
          obtain ⟨rfl, -⟩ := List.cons.inj hshape
          exact uppercase_ofNat_of_hasNoImage
            (contains_of_expansion hentry List.mem_cons_self) (hasNoImage_of_expansion hentry)
  | shifted hrun himage =>
      obtain ⟨rfl, -⟩ := List.cons.inj hshape
      exact uppercase_ofNat_of_hasNoImage (contains_of_run hrun himage)
        (hasNoImage_of_run hrun himage)
  | unchanged =>
      obtain ⟨rfl, rfl⟩ := List.cons.inj hshape
      exact h

end TableModels.Unicode
