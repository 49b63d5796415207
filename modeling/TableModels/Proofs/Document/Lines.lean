import TableModels.Document.Emission
import TableModels.Proofs.Text.Splitting

/-!
# The lines of a document

A document is written line by line, so it falls apart into these lines again exactly when none of
them contains a line feed. All that is written bare is a name or a literal. What the source says
between quotes may hold anything, and neither way of writing it does anything about line feeds:
`flat_lines_iff` says that a line breaks where such a text does and nowhere else.
-/

namespace TableModels

namespace Document

/-- The text contains no line feed. -/
def IsFlat (text : String) : Prop :=
  '\n' ∉ text.toList

instance (text : String) : Decidable (IsFlat text) :=
  inferInstanceAs (Decidable ('\n' ∉ text.toList))

@[simp] theorem isFlat_append {first second : String} :
    IsFlat (first ++ second) ↔ IsFlat first ∧ IsFlat second := by
  simp [IsFlat]

@[simp] theorem isFlat_ofList {text : List Char} : IsFlat (String.ofList text) ↔ '\n' ∉ text := by
  simp [IsFlat]

theorem isDigit_of_mem_repr {number : Nat} {c : Char} (h : c ∈ number.repr.toList) :
    c.isDigit = true := by
  rw [Nat.repr, String.toList_ofList] at h
  exact Nat.isDigit_of_mem_toDigits (by decide) (by decide) h

@[simp] theorem isFlat_repr (number : Nat) : IsFlat number.repr := by
  intro hmem
  exact absurd (isDigit_of_mem_repr hmem) (by decide)

@[simp] theorem isFlat_padRight {width : Nat} {text : String} :
    IsFlat (Text.padRight width text) ↔ IsFlat text := by
  simp [Text.padRight]

theorem isFlat_intercalate_iff {separator : String} (h : IsFlat separator) {texts : List String} :
    IsFlat (String.intercalate separator texts) ↔ ∀ text ∈ texts, IsFlat text := by
  induction texts with
  | nil => simp [IsFlat]
  | cons first rest ih =>
      cases rest with
      | nil => simp
      | cons second later =>
          rw [String.intercalate_cons_cons, isFlat_append, isFlat_append, ih, List.forall_mem_cons]
          simp [h]

theorem newline_mem_escape {text : List Char} :
    '\n' ∈ Text.QuotedLiteral.escape text ↔ '\n' ∈ text := by
  induction text with
  | nil => rfl
  | cons c rest ih =>
      by_cases h : c = '\\' ∨ c = '"' <;> simp [Text.QuotedLiteral.escape, h, ih]

theorem newline_mem_escapeQuotes {text : List Char} :
    '\n' ∈ Text.QuotedLiteral.escapeQuotes text ↔ '\n' ∈ text := by
  induction text with
  | nil => rfl
  | cons c rest ih =>
      by_cases h : c = '"' <;> simp [Text.QuotedLiteral.escapeQuotes, h, ih]

/-- A string contains a line feed when it is written as much as it did before. -/
@[simp] theorem isFlat_write {value : String} :
    IsFlat (Text.QuotedLiteral.write value) ↔ IsFlat value := by
  simp [Text.QuotedLiteral.write, newline_mem_escape, IsFlat]

end Document

open Document (IsFlat)

namespace Attribute

/-- The text that the attribute writes between quotes. -/
def quoted? : Attribute → Option String
  | defaultString value => some value
  | map column => some column
  | _ => none

/-- The literal or the name that the attribute writes bare. -/
def bare? : Attribute → Option String
  | defaultInt literal => some literal
  | defaultDecimal literal => some literal
  | defaultEnum member => some member
  | _ => none

theorem isFlat_render {attr : Attribute} :
    IsFlat attr.render ↔
      (∀ text ∈ attr.quoted?, IsFlat text) ∧ ∀ bare ∈ attr.bare?, IsFlat bare := by
  have hopen : IsFlat "@default(" ∧ IsFlat "@map(" ∧ IsFlat ")" := by decide
  have hsize : IsFlat "@db.VarChar(" ∧ IsFlat "@db.Char(" ∧ IsFlat "@db.Decimal(" ∧
      IsFlat ", " := by
    decide
  cases attr with
  | defaultBool value => cases value <;> decide
  | defaultString | map | defaultInt | defaultDecimal | defaultEnum | varChar | char
  | decimalPrecision =>
      unfold render quoted? bare?
      simp [hopen, hsize]
  | _ => decide

end Attribute

namespace MappedField

/-- What the field writes bare contains no line feed. -/
structure HasFlatNames (field : MappedField) : Prop where
  name : IsFlat field.name
  type : IsFlat field.fieldType.name
  bare : ∀ attr ∈ field.attributes, ∀ bare ∈ attr.bare?, IsFlat bare

/-- What the field writes between quotes contains no line feed. -/
def HasFlatTexts (field : MappedField) : Prop :=
  ∀ attr ∈ field.attributes, ∀ text ∈ attr.quoted?, IsFlat text

instance (field : MappedField) : Decidable field.HasFlatNames :=
  decidable_of_iff (IsFlat field.name ∧ IsFlat field.fieldType.name ∧
      ∀ attr ∈ field.attributes, ∀ bare ∈ attr.bare?, IsFlat bare)
    ⟨fun ⟨name, type, bare⟩ => ⟨name, type, bare⟩, fun h => ⟨h.name, h.type, h.bare⟩⟩

instance (field : MappedField) : Decidable field.HasFlatTexts :=
  inferInstanceAs (Decidable (∀ attr ∈ field.attributes, ∀ text ∈ attr.quoted?, IsFlat text))

theorem isFlat_typeExpression {field : MappedField} :
    IsFlat field.typeExpression ↔ IsFlat field.fieldType.name := by
  have hmark : IsFlat "?" := by decide
  unfold typeExpression
  split <;> simp [hmark]

theorem isFlat_definition {field : MappedField} :
    IsFlat field.definition ↔
      IsFlat field.fieldType.name ∧ ∀ attr ∈ field.attributes, IsFlat attr.render := by
  rw [definition, Document.isFlat_intercalate_iff (by decide), List.forall_mem_cons,
    isFlat_typeExpression, List.forall_mem_map]

end MappedField

namespace Document

theorem isFlat_fieldLine {width : Nat} {field : MappedField} (h : field.HasFlatNames) :
    IsFlat (fieldLine width field) ↔ field.HasFlatTexts := by
  have hspace : IsFlat "  " ∧ IsFlat " " := by decide
  simp only [fieldLine, isFlat_append, hspace, isFlat_padRight, h.name, true_and,
    MappedField.isFlat_definition, h.type, Attribute.isFlat_render]
  constructor
  · intro hflat attr hattr
    exact (hflat attr hattr).1
  · intro hflat attr hattr
    exact ⟨hflat attr hattr, h.bare attr hattr⟩

theorem isFlat_indexLine {index : IndexDeclaration} (h : ∀ column ∈ index.fields, IsFlat column) :
    IsFlat (indexLine index) ↔ ∀ name ∈ index.name, IsFlat name := by
  have hkeyword : IsFlat (IndexDeclaration.keyword index.kind) := by
    cases index.kind <;> decide
  have hcolumns : IsFlat (String.intercalate ", " index.fields) :=
    (isFlat_intercalate_iff (by decide)).2 h
  have hmarks : IsFlat "  " ∧ IsFlat "([" ∧ IsFlat "]" ∧ IsFlat ", map: " ∧ IsFlat ")" := by decide
  unfold indexLine IndexDeclaration.render
  cases index.name <;> simp [hkeyword, hcolumns, hmarks]

theorem isFlat_of_isIdentifier {name : String} (h : isIdentifier name = true) : IsFlat name := by
  intro hmem
  exact absurd (isIdentifierRest_of_isIdentifier h _ hmem) (by decide)

theorem isFlat_valueLine {value : String} : IsFlat (valueLine value) ↔ IsFlat value := by
  have hmarks : IsFlat "  " ∧ IsFlat " @map(\"" ∧ IsFlat "\")" := by decide
  unfold valueLine
  split
  · simp [hmarks]
  · have hmember := isFlat_of_isIdentifier (isIdentifier_memberName value)
    simp only [isFlat_append, isFlat_ofList, newline_mem_escapeQuotes, hmarks, hmember, true_and,
      and_true]
    rfl

theorem isFlat_tableLine {tableName : String} :
    IsFlat (tableLine tableName) ↔ IsFlat tableName := by
  have hmarks : IsFlat "  @@map(\"" ∧ IsFlat "\")" := by decide
  simp [tableLine, hmarks]

/-! ### The blocks -/

/-- The settings that a header is written from contain no line feeds. -/
structure HasFlatHeader (header : Header) : Prop where
  title : IsFlat header.title
  runLabel : IsFlat header.runLabel
  clientProvider : IsFlat header.clientProvider
  provider : IsFlat header.provider
  urlEnv : IsFlat header.urlEnv

/-- What is written bare in the blocks of enumerations and models contains no line feed. -/
structure HasFlatNames (enums : List EnumDeclaration) (models : List ModelDeclaration) : Prop where
  enumNames : ∀ declaration ∈ enums, IsFlat declaration.name
  modelNames : ∀ model ∈ models, IsFlat model.name
  fields : ∀ model ∈ models, ∀ field ∈ model.fields, field.HasFlatNames
  columns : ∀ model ∈ models, ∀ index ∈ model.indexes, ∀ column ∈ index.fields, IsFlat column

/-- What is written between quotes in the blocks of enumerations and models contains no line feed:
the values of the enumerations, the names of the tables, the string defaults and column names of the
fields, and the names of the indexes. -/
structure HasFlatTexts (enums : List EnumDeclaration) (models : List ModelDeclaration) : Prop where
  values : ∀ declaration ∈ enums, ∀ value ∈ declaration.values, IsFlat value
  tables : ∀ model ∈ models, IsFlat model.tableName
  fields : ∀ model ∈ models, ∀ field ∈ model.fields, field.HasFlatTexts
  indexes : ∀ model ∈ models, ∀ index ∈ model.indexes, ∀ name ∈ index.name, IsFlat name

theorem isFlat_of_mem_headerLines {header : Header} (h : HasFlatHeader header)
    (modelCount excludedCount : Nat) :
    ∀ line ∈ headerLines header modelCount excludedCount, IsFlat line := by
  obtain ⟨htitle, hlabel, hclient, hprovider, hurl⟩ := h
  have hrule : IsFlat rule := by decide
  have hcomments : IsFlat "// " ∧ IsFlat "// Generated by: schemashift" ∧ IsFlat "// Run: " ∧
      IsFlat "// Models: " ∧ IsFlat " (excluding " ∧ IsFlat " tables)" := by
    decide
  have hblocks : IsFlat "" ∧ IsFlat "generator client \x7b" ∧ IsFlat "  provider = \"" ∧
      IsFlat "\"" ∧ IsFlat "\x7d" ∧ IsFlat "datasource db \x7b" ∧ IsFlat "  url      = env(\"" ∧
      IsFlat "\")" := by
    decide
  simp [headerLines, hrule, hcomments, hblocks, htitle, hlabel, hclient, hprovider, hurl]

theorem flat_enumLines_iff {declaration : EnumDeclaration} (h : IsFlat declaration.name) :
    (∀ line ∈ enumLines declaration, IsFlat line) ↔ ∀ value ∈ declaration.values, IsFlat value := by
  have hmarks : IsFlat "enum " ∧ IsFlat " \x7b" ∧ IsFlat "\x7d" := by decide
  simp only [enumLines, List.cons_append, List.forall_mem_cons, List.forall_mem_append,
    List.forall_mem_map, List.not_mem_nil, false_implies, implies_true, isFlat_append,
    isFlat_valueLine, hmarks, h, and_true, true_and]

theorem flat_modelLines_iff {width : Nat} {model : ModelDeclaration} (hname : IsFlat model.name)
    (hfields : ∀ field ∈ model.fields, field.HasFlatNames)
    (hcolumns : ∀ index ∈ model.indexes, ∀ column ∈ index.fields, IsFlat column) :
    (∀ line ∈ modelLines width model, IsFlat line) ↔
      (∀ field ∈ model.fields, field.HasFlatTexts) ∧
        (∀ index ∈ model.indexes, ∀ name ∈ index.name, IsFlat name) ∧ IsFlat model.tableName := by
  have hmarks : IsFlat "/// " ∧ IsFlat "model " ∧ IsFlat " \x7b" ∧ IsFlat "\x7d" := by decide
  simp only [modelLines, List.cons_append, List.forall_mem_cons, List.forall_mem_append,
    List.forall_mem_map, List.not_mem_nil, false_implies, implies_true, isFlat_append, hmarks,
    hname, and_true, true_and, isFlat_tableLine, and_assoc]
  apply and_congr
  · exact forall₂_congr fun field hfield => isFlat_fieldLine (hfields field hfield)
  · apply and_congr_left'
    exact forall₂_congr fun index hindex => isFlat_indexLine (hcolumns index hindex)

/-- The lines of the enumerations, under their comment. -/
def enumSection (enums : List EnumDeclaration) : List String :=
  ["", "// Enums"] ++ enums.flatMap fun declaration => "" :: enumLines declaration

/-- The lines of the models, under their comment. -/
def modelSection (width : Nat) (models : List ModelDeclaration) : List String :=
  ["", "// Models"] ++ models.flatMap fun model => "" :: modelLines width model

theorem lines_eq_sections (header : Header) (width : Nat) (enums : List EnumDeclaration)
    (models : List ModelDeclaration) (excludedCount : Nat) :
    lines header width enums models excludedCount =
      headerLines header models.length excludedCount ++ enumSection enums
        ++ modelSection width models := by
  simp only [lines, enumSection, modelSection, List.append_assoc]

/-- The lines behind the header contain no line feed exactly when the texts between their quotes
contain none. -/
theorem flat_sections_iff (width : Nat) {enums : List EnumDeclaration}
    {models : List ModelDeclaration} (hnames : HasFlatNames enums models) :
    (∀ line ∈ enumSection enums ++ modelSection width models, IsFlat line) ↔
      HasFlatTexts enums models := by
  have hcomments : IsFlat "" ∧ IsFlat "// Enums" ∧ IsFlat "// Models" := by decide
  simp only [enumSection, modelSection, List.forall_mem_append, List.forall_mem_flatMap,
    List.forall_mem_cons, List.not_mem_nil, false_implies, implies_true, hcomments, and_true,
    true_and]
  constructor
  · rintro ⟨henums, hmodels⟩
    have hblocks := fun model hmodel => (flat_modelLines_iff (hnames.modelNames model hmodel)
      (hnames.fields model hmodel) (hnames.columns model hmodel)).1 (hmodels model hmodel)
    constructor
    · intro declaration hdeclaration
      exact (flat_enumLines_iff (hnames.enumNames declaration hdeclaration)).1
        (henums declaration hdeclaration)
    · exact fun model hmodel => (hblocks model hmodel).2.2
    · exact fun model hmodel => (hblocks model hmodel).1
    · exact fun model hmodel => (hblocks model hmodel).2.1
  · intro htexts
    constructor
    · intro declaration hdeclaration
      exact (flat_enumLines_iff (hnames.enumNames declaration hdeclaration)).2
        (htexts.values declaration hdeclaration)
    · intro model hmodel
      exact (flat_modelLines_iff (hnames.modelNames model hmodel) (hnames.fields model hmodel)
        (hnames.columns model hmodel)).2
          ⟨htexts.fields model hmodel, htexts.indexes model hmodel, htexts.tables model hmodel⟩

/-- The lines of a document contain no line feed exactly when the texts between its quotes contain
none. -/
theorem flat_lines_iff {header : Header} (hheader : HasFlatHeader header) (width : Nat)
    {enums : List EnumDeclaration} {models : List ModelDeclaration}
    (hnames : HasFlatNames enums models) (excludedCount : Nat) :
    (∀ line ∈ lines header width enums models excludedCount, IsFlat line) ↔
      HasFlatTexts enums models := by
  rw [lines_eq_sections, List.append_assoc, List.forall_mem_append, flat_sections_iff width hnames]
  exact and_iff_right (isFlat_of_mem_headerLines hheader _ _)

/-! ### Reading the lines -/

/-- The lines of a text. What stands behind the last line feed is the last line. -/
def linesOf (text : String) : List String :=
  (Text.split (· == '\n') text.toList).map String.ofList

theorem isFlat_of_mem_linesOf {text line : String} (h : line ∈ linesOf text) : IsFlat line := by
  obtain ⟨piece, hpiece, rfl⟩ := List.mem_map.1 h
  rw [isFlat_ofList]
  intro hmem
  exact absurd (Text.separates_eq_false_of_mem_split hpiece _ hmem) (by decide)

theorem toList_ofLines_cons (line : String) (rest : List String) :
    (ofLines (line :: rest)).toList = line.toList ++ '\n' :: (ofLines rest).toList := by
  simp [ofLines]

/-- Lines that contain no line feed are read back from their text. -/
theorem linesOf_ofLines {written : List String} (h : ∀ line ∈ written, IsFlat line) :
    linesOf (ofLines written) = written ++ [""] := by
  induction written with
  | nil => rfl
  | cons line rest ih =>
      rw [List.forall_mem_cons] at h
      have hrest := ih h.2
      unfold linesOf at hrest ⊢
      rw [toList_ofLines_cons, Text.split_append_of_notMem h.1, List.map_cons, hrest, String.ofList_toList]
      rfl

end Document

end TableModels
