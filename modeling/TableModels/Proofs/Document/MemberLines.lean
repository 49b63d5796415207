import TableModels.Proofs.Document.EnumBlock
import TableModels.Proofs.Enumeration.Calls

/-!
# Members of emitted enumerations

The line of a value begins with its member name, and an annotation behind the member name gives the
value when the two differ. What keeps the lines of one block apart is looked at only once, when an
enumeration is entered into the registry: its values have distinct member names then. No later call
changes an entry, so the lines are apart in the document, too.
-/

namespace TableModels

namespace Document

/-- Behind the member name the line has an annotation that maps the member to a text. -/
def HasMapping (line : String) : Prop :=
  " @map(\"".toList <+: (line.toList.drop 2).dropWhile isIdentifierRest

/-- The line declares the value: it begins with the member name of the value, and it maps the member
exactly when the value is another text. -/
structure DeclaresValue (line value : String) : Prop where
  identifier : isIdentifier (memberToken line) = true
  member : memberToken line = memberName value
  mapping : HasMapping line ↔ memberToken line ≠ value
  bare : ¬ HasMapping line → line = "  " ++ value

/-- Between its braces the block has a line for each value, in order, and no two lines declare one
member. -/
def IsUnambiguous (declaration : EnumDeclaration) : Prop :=
  ∃ lines, enumLines declaration = ("enum " ++ declaration.name ++ " \x7b") :: lines ++ ["\x7d"] ∧
    List.Forall₂ DeclaresValue lines declaration.values ∧ (lines.map memberToken).Nodup

/-! ### The line of a value -/

/-- Behind the member name stands the annotation of the value, if there is one. -/
theorem dropWhile_valueLine (value : String) :
    ((valueLine value).toList.drop 2).dropWhile isIdentifierRest =
      (memberMapping value).toList := by
  have hline : (valueLine value).toList.drop 2 =
      (memberName value).toList ++ (memberMapping value).toList := by
    simp [valueLine_eq]
  have htake : ((memberName value).toList ++ (memberMapping value).toList).takeWhile
      isIdentifierRest = (memberName value).toList :=
    Column.takeWhile_append_eq_iff.2
      ⟨isIdentifierRest_of_isIdentifier (isIdentifier_memberName value),
        stopsAt_memberMapping value⟩
  rw [hline, Column.dropWhile_append_of_takeWhile htake]

/-- A value is its own member name when it is an identifier, and only then. -/
theorem memberName_eq_self_iff {value : String} :
    memberName value = value ↔ isIdentifier value = true := by
  constructor
  · intro h
    rw [← h]
    exact isIdentifier_memberName value
  · intro h
    rw [memberName, if_pos h]

theorem hasMapping_valueLine_iff {value : String} :
    HasMapping (valueLine value) ↔ isIdentifier value = false := by
  rw [HasMapping, dropWhile_valueLine, memberMapping]
  cases isIdentifier value with
  | true => simp
  | false =>
      simp only [Bool.false_eq_true, ↓reduceIte, String.toList_append, List.append_assoc, iff_true]
      exact List.prefix_append _ _

theorem declaresValue_valueLine (value : String) : DeclaresValue (valueLine value) value where
  identifier := by
    rw [memberToken_valueLine]
    exact isIdentifier_memberName value
  member := memberToken_valueLine value
  mapping := by
    rw [hasMapping_valueLine_iff, memberToken_valueLine, ne_eq, memberName_eq_self_iff,
      Bool.not_eq_true]
  bare := by
    intro hnone
    rw [hasMapping_valueLine_iff, Bool.not_eq_false] at hnone
    exact if_pos hnone

/-- The block is as unambiguous as the member names of its values. -/
theorem isUnambiguous_of_nodup {declaration : EnumDeclaration}
    (h : (declaration.values.map memberName).Nodup) : IsUnambiguous declaration := by
  refine ⟨declaration.values.map valueLine, rfl, ?_, ?_⟩
  · rw [List.forall₂_map_left_iff, List.forall₂_same]
    exact fun value _ => declaresValue_valueLine value
  · have htokens : memberToken ∘ valueLine = memberName := funext memberToken_valueLine
    rw [List.map_map, htokens]
    exact h

end Document

namespace EnumRegistry

/-- A name that is not there is entered when the member names of its values are distinct. -/
theorem exists_register_iff_of_fresh {registry : EnumRegistry} {name : String}
    (hfresh : pascalCase name ∉ registry.names) {values : List String} :
    (∃ after canonical, registry.register name values = .ok (after, canonical)) ↔
      ((EnumDeclaration.distinct values).map memberName).Nodup := by
  have hfind := find?_eq_none_iff.2 hfresh
  rw [← EnumDeclaration.clash?_eq_none_iff]
  constructor
  · rintro ⟨after, canonical, hregister⟩
    obtain ⟨-, hstep⟩ := register_eq_ok_iff.1 hregister
    cases hstep with
    | known hknown _ => exact absurd (hfind.symm.trans hknown) nofun
    | setAside hknown _ _ => exact absurd (hfind.symm.trans hknown) nofun
    | added _ hclash => exact hclash
  · intro hclash
    exact ⟨_, _, register_eq_ok_iff.2 ⟨rfl, .added hfind hclash⟩⟩

/-- After any calls, whether they failed or not, every enumeration has an unambiguous block: a line
for each value, with a member name that belongs to no other value of the enumeration. A name that is
not in the registry is accepted exactly when its values would have such a block. -/
theorem enum_blocks_unambiguous (policy : EnumConflictPolicy)
    (requests : List (String × List String)) :
    (∀ declaration ∈ ((empty policy).afterCalls requests).entries,
      Document.IsUnambiguous declaration) ∧
    ∀ name values, pascalCase name ∉ ((empty policy).afterCalls requests).names →
      ((∃ after canonical, ((empty policy).afterCalls requests).register name values =
          .ok (after, canonical)) ↔
        ((EnumDeclaration.distinct values).map memberName).Nodup) := by
  have hkept := isWellKept_afterCalls (isWellKept_empty policy) requests
  constructor
  · intro declaration hdeclaration
    exact Document.isUnambiguous_of_nodup (hkept.members declaration hdeclaration)
  · intro name values hfresh
    exact exists_register_iff_of_fresh hfresh

end EnumRegistry

end TableModels
