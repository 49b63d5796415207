import TableModels.Unicode.CodeRange

/-! # White space

The Unicode property `White_Space`, which is what separates tokens, is trimmed from the ends of a
text and is squashed between tokens. -/

namespace TableModels.Unicode

/-- The code points of white space, in increasing order. -/
def whitespaceRanges : List CodeRange := [
  ⟨0x9, 0xD⟩, ⟨0x20, 0x20⟩, ⟨0x85, 0x85⟩, ⟨0xA0, 0xA0⟩, ⟨0x1680, 0x1680⟩, ⟨0x2000, 0x200A⟩,
  ⟨0x2028, 0x2029⟩, ⟨0x202F, 0x202F⟩, ⟨0x205F, 0x205F⟩, ⟨0x3000, 0x3000⟩]

/-- A character is white space when it lies in one of the listed ranges. -/
def isWhitespace (c : Char) : Bool :=
  CodeRange.anyContains whitespaceRanges c.toNat

/-- Every character that core counts as white space is white space here. -/
theorem isWhitespace_of_core {c : Char} (h : c.isWhitespace = true) : isWhitespace c = true := by
  simp only [Char.isWhitespace, Bool.or_eq_true, decide_eq_true_eq] at h
  rcases h with ((rfl | rfl) | rfl) | rfl <;> decide

end TableModels.Unicode
