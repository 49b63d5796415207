import TableModels.Document.Emission
import TableModels.Proofs.Column.Lexing

/-!
# The block of an enumeration

Between its braces the block of an enumeration has a line for each value, and the line begins with
the member name of the value. `memberToken` reads the member name off the line, so that the members
of a block are told from its lines and not from the values that it was written from.
-/

namespace TableModels.Document

/-- The identifier behind the two spaces with which the line of a value begins. -/
def memberToken (line : String) : String :=
  String.ofList ((line.toList.drop 2).takeWhile isIdentifierRest)

/-- A line between the braces of the enumeration declares the member. -/
def DeclaresMember (declaration : EnumDeclaration) (member : String) : Prop :=
  ∃ line ∈ declaration.values.map valueLine, memberToken line = member

theorem memberToken_eq {line member : String} (later : List Char)
    (hline : line.toList = ' ' :: ' ' :: (member.toList ++ later))
    (hmember : isIdentifier member = true)
    (hstop : Column.StopsAt isIdentifierRest later) : memberToken line = member := by
  have htake : (member.toList ++ later).takeWhile isIdentifierRest = member.toList :=
    Column.takeWhile_append_eq_iff.2 ⟨isIdentifierRest_of_isIdentifier hmember, hstop⟩
  rw [memberToken, hline, List.drop_succ_cons, List.drop_succ_cons, List.drop_zero, htake,
    String.ofList_toList]

/-- What stands behind the member name on the line of a value. -/
def memberMapping (value : String) : String :=
  if isIdentifier value then ""
  else " @map(\"" ++ String.ofList (Text.QuotedLiteral.escapeQuotes value.toList) ++ "\")"

/-- The line of a value is its member name with what stands behind it. -/
theorem valueLine_eq (value : String) :
    valueLine value = "  " ++ memberName value ++ memberMapping value := by
  unfold valueLine memberMapping
  split
  · rename_i hidentifier
    rw [memberName, if_pos hidentifier, String.append_empty]
  · simp only [String.append_assoc]

/-- A space ends the member name. -/
theorem stopsAt_memberMapping (value : String) :
    Column.StopsAt isIdentifierRest (memberMapping value).toList := by
  unfold memberMapping
  split <;> simp [Column.StopsAt, isIdentifierRest]

/-- The line of a value begins with its member name. -/
theorem memberToken_valueLine (value : String) :
    memberToken (valueLine value) = memberName value := by
  apply memberToken_eq (memberMapping value).toList _ (isIdentifier_memberName value)
    (stopsAt_memberMapping value)
  simp [valueLine_eq]

/-- The members of a block are the member names of the values. -/
theorem declaresMember_iff {declaration : EnumDeclaration} {member : String} :
    DeclaresMember declaration member ↔
      ∃ value ∈ declaration.values, memberName value = member := by
  simp only [DeclaresMember, List.mem_map, exists_exists_and_eq_and, memberToken_valueLine]

end TableModels.Document
