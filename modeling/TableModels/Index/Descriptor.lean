import TableModels.Model.Declaration
import TableModels.Source.Identifier
import TableModels.Text.LeftmostMatch
import TableModels.Text.Pieces
import TableModels.Unicode.WordCharacter

/-! # Index descriptors

An index descriptor is the text of an element of an index section. Each call of the shape
`index("name").on(columns)` or `uniqueIndex("name").on(columns)` in it, found from the left, declares
an index, provided that all of its columns are plain references `table.column` or `column`.

## Implementation notes

The name of the call must begin at a word boundary: no word character stands before it. The list of
columns ends at the first closing parenthesis. -/

namespace TableModels.Index

open Text (after? trim split)

/-- A call that declares an index, with the text of its list of columns. -/
structure IndexCall where
  kind : IndexKind
  name : Option (List Char)
  columns : List Char

/-- The text without leading white space. -/
def skipSpace (text : List Char) : List Char :=
  text.dropWhile Unicode.isWhitespace

/-- The content of a literal between two copies of `quote`, and the text behind it. -/
def quotedName? (quote : Char) (text : List Char) : Option (List Char × List Char) :=
  match text with
  | [] => none
  | c :: rest =>
      if c = quote then
        match rest.dropWhile (· != quote) with
        | [] => none
        | _ :: later => some (rest.takeWhile (· != quote), later)
      else
        none

/-- The name given to the call, if any, and the text behind it. -/
def optionalName (text : List Char) : Option (List Char) × List Char :=
  match quotedName? '"' text with
  | some (name, later) => (some name, later)
  | none =>
      match quotedName? '\'' text with
      | some (name, later) => (some name, later)
      | none => (none, text)

/-- The word that opens the call and its parenthesis, as the kind of index, and the text behind. -/
def openingWord? (text : List Char) : Option (IndexKind × List Char) :=
  match after? "uniqueIndex(".toList text with
  | some later => some (.unique, later)
  | none => (after? "index(".toList text).map fun later => (.index, later)

/-- The text of the list of columns, up to the closing parenthesis, and the text behind it. -/
def columnList? (text : List Char) : Option (List Char × List Char) :=
  match text.dropWhile (· != ')') with
  | [] => none
  | _ :: later => some (text.takeWhile (· != ')'), later)

/-- The call at the start of a text, and the text behind it. -/
def readCall (previous : Option Char) (text : List Char) : Option (IndexCall × List Char) :=
  if previous.any Unicode.isWordCharacter then
    none
  else
    match openingWord? text with
    | none => none
    | some (kind, opened) =>
        let named := optionalName (skipSpace opened)
        match after? ")".toList (skipSpace named.2) with
        | none => none
        | some closed =>
            match after? ".on(".toList (skipSpace closed) with
            | none => none
            | some listed =>
                match columnList? listed with
                | none => none
                | some (columns, later) => some (⟨kind, named.1, columns⟩, later)

/-- The column of a reference `table.column` or `column`. -/
def columnOf? (reference : List Char) : Option String :=
  let column? (text : List Char) : Option String :=
    if Source.isIdent text then some (String.ofList text) else none
  match reference.dropWhile (· != '.') with
  | [] => column? reference
  | _ :: column => if Source.isIdent (reference.takeWhile (· != '.')) then column? column else none

/-- The columns of a list of references, if all of them are plain. -/
def columnsOf? (list : List Char) : Option (List String) :=
  let references := ((split (· == ',') list).map trim).filter (!·.isEmpty)
  references.mapM columnOf?

/-- The index that a call declares, if its columns are plain and there is at least one. -/
def IndexCall.declaration? (call : IndexCall) : Option IndexDeclaration :=
  match columnsOf? call.columns with
  | some (first :: rest) =>
      let name := (call.name.filter (!·.isEmpty)).map String.ofList
      some ⟨call.kind, name, first :: rest⟩
  | _ => none

theorem quotedName?_splits {quote : Char} {text name later : List Char}
    (h : quotedName? quote text = some (name, later)) :
    ∃ read, text = read ++ later := by
  unfold quotedName? at h
  split at h
  · cases h
  · rename_i c rest
    split at h
    · split at h
      · cases h
      · rename_i d after hdrop
        simp only [Option.some.injEq, Prod.mk.injEq] at h
        obtain ⟨rfl, rfl⟩ := h
        refine ⟨c :: rest.takeWhile (· != quote) ++ [d], ?_⟩
        have hsplit := List.takeWhile_append_dropWhile (p := (· != quote)) (l := rest)
        rw [hdrop] at hsplit
        simp [hsplit]
    · cases h

theorem optionalName_splits (text : List Char) : ∃ read, text = read ++ (optionalName text).2 := by
  unfold optionalName
  split
  · rename_i h
    exact quotedName?_splits h
  · split
    · rename_i h
      exact quotedName?_splits h
    · exact ⟨[], rfl⟩

theorem skipSpace_splits (text : List Char) : ∃ read, text = read ++ skipSpace text :=
  ⟨text.takeWhile Unicode.isWhitespace, (List.takeWhile_append_dropWhile ..).symm⟩

theorem openingWord?_splits {text later : List Char} {kind : IndexKind}
    (h : openingWord? text = some (kind, later)) : ∃ read, read ≠ [] ∧ text = read ++ later := by
  unfold openingWord? at h
  split at h
  · rename_i hafter
    cases h
    exact ⟨_, by simp, Text.after?_eq_some_iff.1 hafter⟩
  · obtain ⟨rest, hafter, heq⟩ := Option.map_eq_some_iff.1 h
    cases heq
    exact ⟨_, by simp, Text.after?_eq_some_iff.1 hafter⟩

theorem columnList?_splits {text columns later : List Char}
    (h : columnList? text = some (columns, later)) : ∃ read, text = read ++ later := by
  unfold columnList? at h
  split at h
  · cases h
  · rename_i c after hdrop
    simp only [Option.some.injEq, Prod.mk.injEq] at h
    obtain ⟨rfl, rfl⟩ := h
    refine ⟨text.takeWhile (· != ')') ++ [c], ?_⟩
    have hsplit := List.takeWhile_append_dropWhile (p := (· != ')')) (l := text)
    rw [hdrop] at hsplit
    simp [hsplit]

/-- A call that is read is a nonempty beginning of the text. -/
theorem readCall_splits {previous : Option Char} {text later : List Char} {call : IndexCall}
    (h : readCall previous text = some (call, later)) :
    ∃ matched, matched ≠ [] ∧ text = matched ++ later := by
  unfold readCall at h
  split at h
  · cases h
  · split at h
    · cases h
    · rename_i kind opened hopen
      dsimp only at h
      split at h
      · cases h
      · rename_i closed hclose
        split at h
        · cases h
        · rename_i listed hon
          split at h
          · cases h
          · rename_i columns after hcolumns
            simp only [Option.some.injEq, Prod.mk.injEq] at h
            obtain ⟨_, rfl⟩ := h
            obtain ⟨r1, hne, h1⟩ := openingWord?_splits hopen
            obtain ⟨r2, h2⟩ := skipSpace_splits opened
            obtain ⟨r3, h3⟩ := optionalName_splits (skipSpace opened)
            obtain ⟨r4, h4⟩ := skipSpace_splits (optionalName (skipSpace opened)).2
            have h5 := Text.after?_eq_some_iff.1 hclose
            obtain ⟨r6, h6⟩ := skipSpace_splits closed
            have h7 := Text.after?_eq_some_iff.1 hon
            obtain ⟨r8, h8⟩ := columnList?_splits hcolumns
            refine ⟨r1 ++ (r2 ++ (r3 ++ (r4 ++ (")".toList ++ (r6 ++ (".on(".toList ++ r8)))))),
              by simp [hne], ?_⟩
            rw [h1, h2, h3, h4, h5, h6, h7, h8]
            simp only [List.append_assoc]

/-- The pattern of calls that declare an index. -/
def callPattern : Text.Pattern IndexCall :=
  ⟨readCall, readCall_splits⟩

/-- The indexes that a descriptor declares, in order. -/
def indexesOf (descriptor : String) : List IndexDeclaration :=
  (callPattern.values descriptor.toList).filterMap IndexCall.declaration?

end TableModels.Index
