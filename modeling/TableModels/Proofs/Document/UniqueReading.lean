import TableModels.Proofs.Document.QuotedText
import TableModels.Proofs.Document.StrayBraces

/-!
# Unique reading of documents

A document tells what it was written from. It has no lengths and few marks, so each part of it must
say by itself where it ends: a value line is no closing brace, the line of a field is neither that
of an index nor a mapping line, and a field name ends at the first space behind it, however wide
the column is.

## Implementation notes

Each part has a lemma `…_append_inj`: two such parts with anything behind them that give the same
lines are the same, and so is what is behind them.
-/

namespace TableModels.Document

/-! ### Lists that end where something else begins -/

section Lists

variable {α β γ : Type} {first second : List α} {behind after : List β}

/-- Two lists of blocks, each with something behind it that does not begin like a block. -/
theorem flatMap_append_inj {block : α → List β} (view : α → γ)
    (h : first.flatMap block ++ behind = second.flatMap block ++ after)
    (hblock : ∀ x ∈ first, ∀ y ∈ second, ∀ later rest,
      block x ++ later = block y ++ rest → view x = view y ∧ later = rest)
    (hbehind : ∀ y ∈ second, ∀ rest, behind ≠ block y ++ rest)
    (hafter : ∀ x ∈ first, ∀ rest, after ≠ block x ++ rest) :
    first.map view = second.map view ∧ behind = after := by
  induction first generalizing second with
  | nil =>
      cases second with
      | nil => exact ⟨rfl, h⟩
      | cons y second =>
          rw [List.flatMap_nil, List.nil_append, List.flatMap_cons, List.append_assoc] at h
          exact absurd h (hbehind y List.mem_cons_self _)
  | cons x first ih =>
      cases second with
      | nil =>
          rw [List.flatMap_nil, List.nil_append, List.flatMap_cons, List.append_assoc] at h
          exact absurd h.symm (hafter x List.mem_cons_self _)
      | cons y second =>
          rw [List.flatMap_cons, List.flatMap_cons, List.append_assoc, List.append_assoc] at h
          obtain ⟨hview, hlater⟩ := hblock x List.mem_cons_self y List.mem_cons_self _ _ h
          obtain ⟨hviews, hrest⟩ := ih hlater
            (fun x hx y hy => hblock x (List.mem_cons_of_mem _ hx) y (List.mem_cons_of_mem _ hy))
            (fun y hy => hbehind y (List.mem_cons_of_mem _ hy))
            (fun x hx => hafter x (List.mem_cons_of_mem _ hx))
          exact ⟨by rw [List.map_cons, List.map_cons, hview, hviews], hrest⟩

/-- Two lists of lines, each with something behind it that does not begin with such a line. -/
theorem map_append_inj {line : α → β} (view : α → γ)
    (h : first.map line ++ behind = second.map line ++ after)
    (hline : ∀ x ∈ first, ∀ y ∈ second, line x = line y → view x = view y)
    (hbehind : ∀ y ∈ second, behind.head? ≠ some (line y))
    (hafter : ∀ x ∈ first, after.head? ≠ some (line x)) :
    first.map view = second.map view ∧ behind = after := by
  rw [List.map_eq_flatMap, List.map_eq_flatMap] at h
  apply flatMap_append_inj view h
  · intro x hx y hy later rest heq
    obtain ⟨hsame, hrest⟩ := List.cons.inj heq
    exact ⟨hline x hx y hy hsame, hrest⟩
  · rintro y hy rest rfl
    exact hbehind y hy rfl
  · rintro x hx rest rfl
    exact hafter x hx rfl

end Lists

/-! ### Lines -/

theorem memberMapping_eq_empty_iff {value : String} :
    memberMapping value = "" ↔ isIdentifier value = true := by
  unfold memberMapping
  split <;> simp_all [String.append_assoc]

theorem toList_memberMapping {value : String} (h : isIdentifier value = false) :
    (memberMapping value).toList =
      " @map(\"".toList ++ Text.QuotedLiteral.escapeBy (· == '"') value.toList ++ "\")".toList := by
  simp [memberMapping, h, Text.QuotedLiteral.escapeBy_quote]

/-- A value is told from its line, also when another value goes by the same member name. -/
theorem valueLine_injective : Function.Injective valueLine := by
  intro value other h
  have hmember : memberName value = memberName other := by
    rw [← memberToken_valueLine, h, memberToken_valueLine]
  have hmapping : memberMapping value = memberMapping other := by
    rw [valueLine_eq, valueLine_eq, hmember] at h
    exact (String.append_right_inj _).1 h
  have hsame : isIdentifier value = isIdentifier other := by
    rw [Bool.eq_iff_iff, ← memberMapping_eq_empty_iff, ← memberMapping_eq_empty_iff, hmapping]
  cases hother : isIdentifier other with
  | true => simpa [memberName, hsame, hother] using hmember
  | false =>
      have hlist := congrArg String.toList hmapping
      rw [toList_memberMapping (hsame.trans hother), toList_memberMapping hother] at hlist
      have hescaped := List.append_cancel_left (List.append_cancel_right hlist)
      exact String.toList_inj.1 (Text.QuotedLiteral.escapeBy_injective _ hescaped)

/-- The name of a field ends at the first space behind it. -/
theorem memberToken_fieldLine {field : MappedField} (h : isIdentifier field.name = true)
    (width : Nat) : memberToken (fieldLine width field) = field.name := by
  apply memberToken_eq
    (List.replicate (width - field.name.length) ' ' ++ ' ' :: field.definition.toList) _ h
  · intro c hc
    have hspace : ' ' = c := by
      cases hspaces : width - field.name.length <;> simpa [hspaces, List.replicate_succ] using hc
    rw [← hspace]
    decide
  · simp [fieldLine, Text.padRight]

theorem fieldLine_inj {width : Nat} {field other : MappedField}
    (hfield : isIdentifier field.name = true) (hother : isIdentifier other.name = true)
    (h : fieldLine width field = fieldLine width other) :
    (field.name, field.definition) = (other.name, other.definition) := by
  have hname : field.name = other.name := by
    rw [← memberToken_fieldLine hfield width, h, memberToken_fieldLine hother]
  rw [fieldLine, fieldLine, hname, String.append_right_inj] at h
  rw [hname, h]

theorem indexLine_inj {index other : IndexDeclaration} (h : indexLine index = indexLine other) :
    index.render = other.render :=
  (String.append_right_inj _).1 h

theorem tableLine_injective : Function.Injective tableLine := by
  intro tableName other h
  rw [tableLine, tableLine, String.append_left_inj, String.append_right_inj] at h
  exact h

/-- The third character tells the line of a field from other lines of a model. -/
theorem getElem?_fieldLine_ne {field : MappedField} (h : isIdentifier field.name = true)
    (width : Nat) : (fieldLine width field).toList[2]? ≠ some '@' := by
  cases hname : field.name.toList with
  | nil => simp [isIdentifier, hname] at h
  | cons c rest =>
      simp only [fieldLine, Text.padRight, String.toList_append, hname]
      rintro heq
      simp at heq
      subst heq
      simp [isIdentifier, hname, isIdentifierStart] at h

theorem getElem?_indexLine (index : IndexDeclaration) :
    (indexLine index).toList[2]? = some '@' := by
  obtain ⟨kind, name, columns⟩ := index
  cases kind <;> cases name <;> simp [indexLine, IndexDeclaration.render, IndexDeclaration.keyword]

/-- Behind the fields of a model comes an index or the mapping line, and never another field. -/
theorem head?_ne_fieldLine {width : Nat} (indexes : List IndexDeclaration) {tableName : String}
    (later : List String) {field : MappedField} (h : isIdentifier field.name = true) :
    (indexes.map indexLine ++ (tableLine tableName :: later)).head? ≠
      some (fieldLine width field) := by
  intro heq
  apply getElem?_fieldLine_ne h width
  cases indexes with
  | nil =>
      rw [← Option.some.inj heq]
      simp [tableLine]
  | cons index rest =>
      rw [← Option.some.inj heq]
      exact getElem?_indexLine index

theorem mapsTable_tableLine (tableName : String) : MapsTable (tableLine tableName) := by
  rw [MapsTable, tableLine, String.append_assoc, String.toList_append]
  exact List.prefix_append _ _

theorem tableLine_ne_indexLine {tableName : String} (index : IndexDeclaration) :
    some (tableLine tableName) ≠ some (indexLine index) := by
  intro heq
  apply not_mapsTable_indexLine index
  rw [← Option.some.inj heq]
  exact mapsTable_tableLine tableName

/-! ### Blocks -/

/-- The lines of an enumeration tell it, whatever is behind them. -/
theorem enumLines_append_inj {declaration other : EnumDeclaration} {later rest : List String}
    (h : enumLines declaration ++ later = enumLines other ++ rest) :
    declaration = other ∧ later = rest := by
  simp only [enumLines, List.cons_append, List.append_assoc, List.cons.injEq,
    String.append_left_inj, String.append_right_inj] at h
  obtain ⟨hname, hlines⟩ := h
  have hbrace : ∀ value, some "\x7d" ≠ some (valueLine value) := by
    intro value heq
    have hchars := congrArg String.toList (Option.some.inj heq)
    rw [valueLine_eq] at hchars
    simp at hchars
  obtain ⟨hvalues, hbehind⟩ := map_append_inj id hlines
    (fun _ _ _ _ heq => valueLine_injective heq) (fun value _ => hbrace value)
    (fun value _ => hbrace value)
  constructor
  · cases declaration
    cases other
    simp_all
  · simpa using hbehind

/-- What a document tells of a model. -/
structure WrittenModel where
  name : String
  tableName : String
  /-- The names of the fields with their definitions. -/
  fields : List (String × String)
  indexes : List String
  deriving DecidableEq

/-- A model as a document tells it. -/
def WrittenModel.of (model : ModelDeclaration) : WrittenModel where
  name := model.name
  tableName := model.tableName
  fields := model.fields.map fun field => (field.name, field.definition)
  indexes := model.indexes.map IndexDeclaration.render

/-- The lines that are written from it. -/
def WrittenModel.lines (width : Nat) (written : WrittenModel) : List String :=
  ("/// " ++ written.name) :: ("model " ++ written.name ++ " \x7b")
    :: written.fields.map (fun (name, definition) =>
      "  " ++ Text.padRight width name ++ " " ++ definition)
    ++ written.indexes.map ("  " ++ ·) ++ [tableLine written.tableName, "\x7d"]

/-- Nothing else of a model goes into its lines. -/
theorem lines_writtenModel (width : Nat) (model : ModelDeclaration) :
    (WrittenModel.of model).lines width = modelLines width model := by
  simp only [WrittenModel.of, WrittenModel.lines, modelLines, List.map_map]
  rfl

/-- The lines of a model tell all that is written of it, whatever is behind them. -/
theorem modelLines_append_inj {width : Nat} {model other : ModelDeclaration}
    (hmodel : ∀ field ∈ model.fields, isIdentifier field.name = true)
    (hother : ∀ field ∈ other.fields, isIdentifier field.name = true) {later rest : List String}
    (h : modelLines width model ++ later = modelLines width other ++ rest) :
    WrittenModel.of model = WrittenModel.of other ∧ later = rest := by
  simp only [modelLines, List.cons_append, List.append_assoc, List.cons.injEq,
    String.append_right_inj] at h
  obtain ⟨hname, -, hlines⟩ := h
  obtain ⟨hfields, hbehind⟩ := map_append_inj (fun field => (field.name, field.definition)) hlines
    (fun field hfield next hnext heq => fieldLine_inj (hmodel field hfield) (hother next hnext) heq)
    (fun field hfield => head?_ne_fieldLine model.indexes _ (hother field hfield))
    (fun field hfield => head?_ne_fieldLine other.indexes _ (hmodel field hfield))
  obtain ⟨hindexes, hclosing⟩ := map_append_inj IndexDeclaration.render hbehind
    (fun _ _ _ _ heq => indexLine_inj heq) (fun index _ => tableLine_ne_indexLine index)
    (fun index _ => tableLine_ne_indexLine index)
  obtain ⟨htable, hrest⟩ := List.cons.inj hclosing
  constructor
  · rw [WrittenModel.of, WrittenModel.of, hname, tableLine_injective htable, hfields, hindexes]
  · exact (List.cons.inj hrest).2

/-! ### Sections -/

theorem modelSection_ne_enumLines {width : Nat} {models : List ModelDeclaration}
    (declaration : EnumDeclaration) (rest : List String) :
    modelSection width models ≠ "" :: enumLines declaration ++ rest := by
  intro heq
  simp only [modelSection, enumLines, List.cons_append, List.cons.injEq] at heq
  have hchars := congrArg String.toList heq.2.1
  simp at hchars

theorem enumSection_append_inj {width : Nat} {enums otherEnums : List EnumDeclaration}
    {models otherModels : List ModelDeclaration}
    (h : enumSection enums ++ modelSection width models =
      enumSection otherEnums ++ modelSection width otherModels) :
    enums = otherEnums ∧ modelSection width models = modelSection width otherModels := by
  rw [enumSection, enumSection, List.append_assoc, List.append_assoc] at h
  obtain ⟨henums, hmodels⟩ := flatMap_append_inj id (List.append_cancel_left h)
    (fun _ _ _ _ _ _ heq => enumLines_append_inj (List.cons.inj heq).2)
    (fun declaration _ rest => modelSection_ne_enumLines declaration rest)
    (fun declaration _ rest => modelSection_ne_enumLines declaration rest)
  rw [List.map_id, List.map_id] at henums
  exact ⟨henums, hmodels⟩

theorem modelSection_eq (width : Nat) (models : List ModelDeclaration) :
    modelSection width models = ["", "// Models"] ++
      (models.map WrittenModel.of).flatMap fun written => "" :: written.lines width := by
  simp only [modelSection, List.flatMap_map, lines_writtenModel]

theorem modelSection_inj {width : Nat} {models others : List ModelDeclaration}
    (hmodels : ∀ model ∈ models, ∀ field ∈ model.fields, isIdentifier field.name = true)
    (hothers : ∀ model ∈ others, ∀ field ∈ model.fields, isIdentifier field.name = true)
    (h : modelSection width models = modelSection width others) :
    models.map WrittenModel.of = others.map WrittenModel.of := by
  have hlines := congrArg (· ++ []) (List.append_cancel_left h)
  refine (flatMap_append_inj WrittenModel.of hlines ?_ ?_ ?_).1
  · intro model hmodel other hother later rest heq
    exact modelLines_append_inj (hmodels model hmodel) (hothers other hother) (List.cons.inj heq).2
  · intro _ _ _ heq
    cases heq
  · intro _ _ _ heq
    cases heq

/-! ### Documents -/

theorem ofLines_append (first second : List String) :
    ofLines (first ++ second) = ofLines first ++ ofLines second := by
  simp [ofLines]

/-- The count of the models stands in the text of a header between texts that do not depend on it,
and a space ends it. -/
theorem exists_toList_headerLines (header : Header) (excludedCount : Nat) :
    ∃ before later, ∀ modelCount, (ofLines (headerLines header modelCount excludedCount)).toList =
      before ++ (modelCount.repr.toList ++ ' ' :: later) := by
  let others := headerLines header 0 excludedCount
  refine ⟨(ofLines (others.take 5)).toList ++ "// Models: ".toList,
    "(excluding ".toList ++ excludedCount.repr.toList ++ " tables)\n".toList
      ++ (ofLines (others.drop 6)).toList, fun modelCount => ?_⟩
  have hlines : headerLines header modelCount excludedCount = others.take 5 ++
      ("// Models: " ++ toString modelCount ++ " (excluding " ++ toString excludedCount
        ++ " tables)") :: others.drop 6 := rfl
  rw [hlines, ofLines_append, String.toList_append, toList_ofLines_cons]
  simp

/-- The header gives nothing away but the count of the models, and that ends at a space. -/
theorem sections_eq_of_emit_eq {header : Header} {width excludedCount : Nat}
    {enums otherEnums : List EnumDeclaration} {models otherModels : List ModelDeclaration}
    (hflat : ∀ line ∈ enumSection enums ++ modelSection width models, IsFlat line)
    (hother : ∀ line ∈ enumSection otherEnums ++ modelSection width otherModels, IsFlat line)
    (h : emit header width enums models excludedCount =
      emit header width otherEnums otherModels excludedCount) :
    enumSection enums ++ modelSection width models =
      enumSection otherEnums ++ modelSection width otherModels := by
  obtain ⟨before, later, hheader⟩ := exists_toList_headerLines header excludedCount
  have hchars := congrArg String.toList h
  simp only [emit, lines_eq_sections, List.append_assoc, ofLines_append, String.toList_append,
    hheader, List.append_cancel_left_eq, List.cons_append] at hchars
  have hdigits (count : Nat) : ∀ c ∈ count.repr.toList, (c != ' ') = true := by
    intro c hc
    apply bne_iff_ne.2
    rintro rfl
    exact absurd (isDigit_of_mem_repr hc) (by decide)
  have hbehind := congrArg (List.dropWhile (· != ' ')) hchars
  rw [List.dropWhile_append_of_pos (hdigits _), List.dropWhile_append_of_pos (hdigits _)] at hbehind
  have htext : ofLines (enumSection enums ++ modelSection width models) =
      ofLines (enumSection otherEnums ++ modelSection width otherModels) := by
    apply String.toList_inj.1
    simpa [ofLines_append] using hbehind
  have hlines := congrArg linesOf htext
  rw [linesOf_ofLines hflat, linesOf_ofLines hother] at hlines
  exact List.append_cancel_right hlines

/-- The texts of the enumerations and models contain no line feed, and the fields go by
identifiers. -/
structure IsReadable (enums : List EnumDeclaration) (models : List ModelDeclaration) : Prop where
  names : HasFlatNames enums models
  texts : HasFlatTexts enums models
  fields : ∀ model ∈ models, ∀ field ∈ model.fields, isIdentifier field.name = true

/-- Under one header, two documents are the same exactly when they are written from the same
enumerations and from models of which the same is written. -/
theorem emit_eq_emit_iff {header : Header} {width excludedCount : Nat}
    {enums otherEnums : List EnumDeclaration} {models otherModels : List ModelDeclaration}
    (h : IsReadable enums models) (hother : IsReadable otherEnums otherModels) :
    emit header width enums models excludedCount =
        emit header width otherEnums otherModels excludedCount ↔
      enums = otherEnums ∧ models.map WrittenModel.of = otherModels.map WrittenModel.of := by
  constructor
  · intro heq
    have hsections := sections_eq_of_emit_eq ((flat_sections_iff width h.names).2 h.texts)
      ((flat_sections_iff width hother.names).2 hother.texts) heq
    obtain ⟨henums, hmodels⟩ := enumSection_append_inj hsections
    exact ⟨henums, modelSection_inj h.fields hother.fields hmodels⟩
  · rintro ⟨rfl, hmodels⟩
    have hcount : models.length = otherModels.length := by simpa using congrArg List.length hmodels
    rw [emit, emit, lines_eq_sections, lines_eq_sections, modelSection_eq, modelSection_eq, hcount,
      hmodels]

/-- A model with a field that is wider than the column, a default that looks like an attribute, and
a table whose name ends its own literal. -/
def quotedModel : ModelDeclaration where
  name := "Users"
  sourceIdent := "users"
  tableName := "a\")"
  fields := [⟨"createdAt", .string, [.defaultString "x\") @unique"], false⟩]
  indexes := [⟨.unique, none, ["createdAt"]⟩]

/-- Two values that go by the member name `in_review` are told apart. -/
theorem emit_ne_emit_inReview :
    emit {} 4 [⟨"Status", ["in-review"]⟩] [quotedModel] 0 ≠
      emit {} 4 [⟨"Status", ["in_review"]⟩] [quotedModel] 0 := by
  have hfirst : IsReadable [⟨"Status", ["in-review"]⟩] [quotedModel] :=
    ⟨by constructor <;> decide, by constructor <;> decide, by decide⟩
  have hsecond : IsReadable [⟨"Status", ["in_review"]⟩] [quotedModel] :=
    ⟨by constructor <;> decide, by constructor <;> decide, by decide⟩
  exact (emit_eq_emit_iff hfirst hsecond).not.2 (by decide)

end TableModels.Document
