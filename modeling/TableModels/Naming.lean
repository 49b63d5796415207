import TableModels.Text.Pieces
import TableModels.Unicode.Uppercase

/-! # Names of the target document

How a name of the source becomes a name of the target. Models and enums are named in Pascal case.
An enum value that is not a bare identifier is turned into one.

## Implementation notes

Bare identifiers are ASCII; Pascal case is not, because it keeps every character that does not
separate words. -/

namespace TableModels

/-- The characters that separate the words of a name. -/
def isWordSeparator (c : Char) : Bool :=
  c == '_' || c == '-' || Unicode.isWhitespace c

/-- A word with its first character in upper case and the others as they are. -/
def capitalized : List Char → List Char
  | [] => []
  | c :: rest => Unicode.uppercase c ++ rest

/-- The words of a name, each capitalized, without separators. -/
def pascalCase (name : String) : String :=
  String.ofList ((Text.split isWordSeparator name.toList).flatMap capitalized)

/-- A character that may begin a bare identifier. -/
def isIdentifierStart (c : Char) : Bool :=
  c.isAlpha || c == '_'

/-- A character that may continue a bare identifier. -/
def isIdentifierRest (c : Char) : Bool :=
  c.isAlphanum || c == '_'

/-- A bare identifier is a letter or underscore followed by letters, digits and underscores. -/
def isIdentifier (name : String) : Bool :=
  match name.toList with
  | [] => false
  | c :: rest => isIdentifierStart c && rest.all isIdentifierRest

theorem isIdentifierRest_of_isIdentifierStart {c : Char} (h : isIdentifierStart c = true) :
    isIdentifierRest c = true := by
  simp only [isIdentifierStart, isIdentifierRest, Char.isAlphanum, Bool.or_eq_true] at h ⊢
  rcases h with h | h <;> simp [h]

theorem isIdentifierRest_of_isIdentifier {name : String} (h : isIdentifier name = true) :
    ∀ c ∈ name.toList, isIdentifierRest c = true := by
  intro c hc
  unfold isIdentifier at h
  split at h
  · cases h
  · rename_i first rest heq
    rw [Bool.and_eq_true] at h
    rw [heq] at hc
    obtain rfl | hrest := List.mem_cons.1 hc
    · exact isIdentifierRest_of_isIdentifierStart h.1
    · exact List.all_eq_true.1 h.2 c hrest

/-- The name with every character that no identifier has replaced by an underscore, and a `v` in
front unless it begins with a letter. -/
def sanitizeIdentifier (name : String) : String :=
  let kept := name.toList.map fun c => if c.isAlphanum then c else '_'
  match kept with
  | c :: _ => if c.isAlpha then String.ofList kept else String.ofList ('v' :: kept)
  | [] => "v"

/-- The bare name that an enum value goes by: the value itself when it is an identifier. -/
def memberName (value : String) : String :=
  if isIdentifier value then value else sanitizeIdentifier value

/-- The name that it is turned into is an identifier. -/
theorem isIdentifier_sanitizeIdentifier (name : String) :
    isIdentifier (sanitizeIdentifier name) = true := by
  have hrest : ∀ c ∈ name.toList.map (fun c : Char => if c.isAlphanum then c else '_'),
      isIdentifierRest c = true := by
    intro c hc
    obtain ⟨d, _, rfl⟩ := List.mem_map.1 hc
    by_cases hd : d.isAlphanum <;> simp [isIdentifierRest, hd]
  simp only [sanitizeIdentifier]
  generalize name.toList.map (fun c : Char => if c.isAlphanum then c else '_') = kept at hrest
  cases kept with
  | nil => decide
  | cons c rest =>
      have htail : rest.all isIdentifierRest = true :=
        List.all_eq_true.2 fun d hd => hrest d (List.mem_cons_of_mem _ hd)
      by_cases hc : c.isAlpha
      · simp [hc, isIdentifier, isIdentifierStart, htail]
      · have hv : isIdentifierStart 'v' = true := by decide
        simp [hc, isIdentifier, hv, hrest c (List.mem_cons_self ..), htail]

theorem isIdentifier_memberName (value : String) : isIdentifier (memberName value) = true := by
  unfold memberName
  split
  · assumption
  · exact isIdentifier_sanitizeIdentifier value

end TableModels
