import TableModels.Proofs.Document.EnumBlock
import TableModels.Proofs.Document.Lines
import TableModels.Proofs.Document.RepairRuns
import Mathlib.Data.List.Chain

/-!
# Documents without stray braces

Repair looks for a closing brace on the line before a line that maps a table. In a document whose
lines contain no line feed there is none: the line before the mapping line of a model is that of an
index, of a field or of the opening of the model, and no line but the mapping lines begins like one.
So repair leaves such a document as it was written.
-/

namespace TableModels.Document

/-- The line begins like one that maps a table. -/
def MapsTable (line : String) : Prop :=
  mappingStart <+: line.toList

/-- The line ends in a closing brace. -/
def EndsInBrace (line : String) : Prop :=
  line.toList.getLast? = some '\x7d'

instance (line : String) : Decidable (MapsTable line) :=
  inferInstanceAs (Decidable (mappingStart <+: line.toList))

instance (line : String) : Decidable (EndsInBrace line) :=
  inferInstanceAs (Decidable (line.toList.getLast? = some '\x7d'))

/-- No brace at the end of the one line stands before a mapping on the next. -/
def KeepsBraces (line next : String) : Prop :=
  EndsInBrace line → ¬ MapsTable next

instance : DecidableRel KeepsBraces := fun line next =>
  inferInstanceAs (Decidable (EndsInBrace line → ¬ MapsTable next))

/-! ### Texts that repair leaves alone -/

/-- A match begins with a brace that ends a line, and with a mapping on the next. -/
theorem readStrayBrace_eq_none (previous : Option Char) {text : List Char}
    (h : ¬ '\x7d' :: '\n' :: mappingStart <+: text) : readStrayBrace previous text = none := by
  unfold readStrayBrace
  split
  · rfl
  · rename_i opened hopened
    exact absurd ⟨opened, (Text.after?_eq_some_iff.1 hopened).symm⟩ h

/-- A stray brace stands before the beginning of a mapping line. -/
theorem not_holdsStrayBrace {text : List Char} (h : ¬ '\x7d' :: '\n' :: mappingStart <:+: text) :
    ¬ HoldsStrayBrace text := by
  rintro ⟨before, table, later, -, -, rfl⟩
  apply h
  refine ⟨before, table ++ ['"', ')', '\n', '\x7d'] ++ later, ?_⟩
  simp [strayBraceText, mappingEnd]

/-- Without a brace before a mapping line nothing is removed. -/
theorem repairText_eq_self {text : List Char} (h : ¬ '\x7d' :: '\n' :: mappingStart <:+: text) :
    repairText text = (text, 0) :=
  repairText_of_repairPass (repairPass_eq_zero_iff.2 (not_holdsStrayBrace h))

theorem repair_eq_self {text : String}
    (h : ¬ '\x7d' :: '\n' :: mappingStart <:+: text.toList) : repair text = ⟨text, 0⟩ := by
  rw [repair, repairText_eq_self h, String.ofList_toList]

/-- A text whose first line begins like a mapping line, or that has no other line, begins so only
in that line. -/
theorem mapsTable_of_prefix {line : String} {behind : List Char}
    (hbehind : ∀ c ∈ behind.head?, c = '\n') (h : mappingStart <+: line.toList ++ behind) :
    MapsTable line := by
  obtain ⟨later, heq⟩ := h
  obtain ⟨inside, hline, -⟩ | ⟨inside, hstart, hrest⟩ := List.append_eq_append_iff.1 heq
  · exact ⟨inside, hline.symm⟩
  · cases inside with
    | nil => exact ⟨[], by simpa using hstart⟩
    | cons c inside =>
        -- the line feed behind the line would belong to the beginning of a mapping line
        obtain rfl := hbehind c (by simp [hrest])
        have hmem : '\n' ∈ mappingStart := by
          rw [hstart]
          exact List.mem_append_right _ List.mem_cons_self
        exact absurd hmem (by decide)

/-- A text of lines that begins like a mapping line has such a line first. -/
theorem mapsTable_of_ofLines {written : List String}
    (h : mappingStart <+: (ofLines written).toList) : ∃ next ∈ written.head?, MapsTable next := by
  cases written with
  | nil => exact absurd h (by decide)
  | cons next rest =>
      rw [toList_ofLines_cons] at h
      exact ⟨next, rfl, mapsTable_of_prefix (by simp) h⟩

/-- Lines that contain no line feed hold a brace before a mapping only where one line ends and the
next one begins. -/
theorem not_infix_ofLines {written : List String} (hflat : ∀ line ∈ written, IsFlat line)
    (hchain : written.IsChain KeepsBraces) :
    ¬ '\x7d' :: '\n' :: mappingStart <:+: (ofLines written).toList := by
  induction written with
  | nil => decide
  | cons line rest ih =>
      rw [List.forall_mem_cons] at hflat
      rw [List.isChain_cons] at hchain
      rintro ⟨before, later, heq⟩
      rw [toList_ofLines_cons, List.append_assoc] at heq
      obtain ⟨inside, hline, hrest⟩ | ⟨inside, -, hrest⟩ := List.append_eq_append_iff.1 heq
      · -- the brace stands in the line, and only its end has a line feed behind it
        obtain _ | ⟨brace, _ | ⟨c, inside⟩⟩ := inside
        · cases hrest
        · obtain ⟨rfl, hbehind⟩ := List.cons.inj hrest
          obtain ⟨next, hnext, hmaps⟩ := mapsTable_of_ofLines ⟨later, (List.cons.inj hbehind).2⟩
          have hends : EndsInBrace line := by simp [EndsInBrace, hline]
          exact hchain.1 next hnext hends hmaps
        · obtain ⟨-, hbehind⟩ := List.cons.inj hrest
          obtain ⟨rfl, -⟩ := List.cons.inj hbehind
          have hmem : '\n' ∈ line.toList := by simp [hline]
          exact hflat.1 hmem
      · -- the brace stands behind the line
        cases inside with
        | nil => cases hrest
        | cons c inside =>
            obtain ⟨rfl, hbehind⟩ := List.cons.inj hrest
            apply ih hflat.2 hchain.2
            exact ⟨inside, later, by rw [List.append_assoc]; exact hbehind.symm⟩

/-! ### Lines that map no table -/

theorem not_mapsTable_of_getElem? {line : String} (h : line.toList[2]? ≠ some '@') :
    ¬ MapsTable line := by
  rintro ⟨later, heq⟩
  apply h
  rw [← heq]
  rfl

/-- Behind its two spaces a mapping line begins with the word for mappings. -/
theorem MapsTable.exists_eq {line : String} (h : MapsTable line) {text : List Char}
    (hline : line.toList = ' ' :: ' ' :: text) : ∃ later, text = '@' :: '@' :: 'm' :: later := by
  obtain ⟨later, heq⟩ := h
  rw [hline] at heq
  exact ⟨_, (List.cons.inj (List.cons.inj heq).2).2.symm⟩

theorem not_mapsTable_of_mem_headerLines {header : Header} {modelCount excludedCount : Nat} :
    ∀ line ∈ headerLines header modelCount excludedCount, ¬ MapsTable line := by
  intro line hline
  apply not_mapsTable_of_getElem?
  simp only [headerLines, rule, List.mem_cons, List.not_mem_nil, or_false] at hline
  rcases hline with rfl | rfl | rfl | rfl | rfl | rfl | rfl | rfl | rfl | rfl | rfl | rfl | rfl |
    rfl | rfl | rfl <;> simp

theorem not_mapsTable_valueLine (value : String) : ¬ MapsTable (valueLine value) := by
  intro h
  obtain ⟨later, heq⟩ := h.exists_eq (by simp [valueLine_eq]; rfl)
  have hidentifier := isIdentifier_memberName value
  cases hmember : (memberName value).toList with
  | nil => simp [isIdentifier, hmember] at hidentifier
  | cons c rest =>
      rw [hmember] at heq
      obtain ⟨rfl, -⟩ := List.cons.inj heq
      simp [isIdentifier, hmember, isIdentifierStart] at hidentifier

theorem not_mapsTable_indexLine (index : IndexDeclaration) : ¬ MapsTable (indexLine index) := by
  intro h
  obtain ⟨kind, name, columns⟩ := index
  obtain ⟨later, heq⟩ := h.exists_eq (by simp [indexLine]; rfl)
  cases kind <;> cases name <;> simp [IndexDeclaration.render, IndexDeclaration.keyword] at heq

/-! ### Lines that end in no brace -/

theorem EndsInBrace.of_append {first second : String} (h : EndsInBrace (first ++ second)) :
    EndsInBrace second ∨ second = "" ∧ EndsInBrace first := by
  unfold EndsInBrace at h ⊢
  rw [String.toList_append, List.getLast?_append] at h
  cases hsecond : second.toList.getLast? with
  | none =>
      rw [hsecond] at h
      exact Or.inr ⟨by simpa using hsecond, h⟩
  | some c =>
      rw [hsecond] at h
      exact Or.inl h

theorem not_endsInBrace_append (first : String) {second : String} (hnonempty : second ≠ "")
    (h : ¬ EndsInBrace second) : ¬ EndsInBrace (first ++ second) := by
  intro hends
  obtain hsecond | ⟨hempty, -⟩ := hends.of_append
  · exact h hsecond
  · exact hnonempty hempty

theorem not_endsInBrace_indexLine (index : IndexDeclaration) : ¬ EndsInBrace (indexLine index) := by
  unfold indexLine IndexDeclaration.render
  cases index.name <;> (dsimp only; rw [← String.append_assoc])
  all_goals exact not_endsInBrace_append _ (by decide) (by decide)

theorem not_endsInBrace_render (attr : Attribute) : ¬ EndsInBrace attr.render := by
  cases attr with
  | defaultBool value => cases value <;> decide
  | defaultString | map | defaultInt | defaultDecimal | defaultEnum | varChar | char
  | decimalPrecision => exact not_endsInBrace_append _ (by decide) (by decide)
  | _ => decide

/-- Texts with spaces between them end in a brace only if the last of them does. -/
theorem EndsInBrace.exists_last {texts : List String}
    (h : EndsInBrace (String.intercalate " " texts)) :
    ∃ last ∈ texts.getLast?, EndsInBrace last := by
  induction texts with
  | nil => cases h
  | cons first rest ih =>
      cases rest with
      | nil => exact ⟨first, rfl, by simpa using h⟩
      | cons second others =>
          rw [String.intercalate_cons_cons] at h
          obtain hrest | ⟨-, hfirst⟩ := h.of_append
          · rw [List.getLast?_cons_cons]
            exact ih hrest
          · exact absurd hfirst (not_endsInBrace_append _ (by decide) (by decide))

/-- The definition of a field ends in a brace only if the field has no attributes and the name of
its type ends in the brace. -/
theorem endsInBrace_typeName {field : MappedField} (h : EndsInBrace field.definition) :
    field.attributes = [] ∧ EndsInBrace field.fieldType.name := by
  obtain ⟨last, hlast, hends⟩ := EndsInBrace.exists_last h
  cases hattributes : field.attributes with
  | nil =>
      rw [hattributes] at hlast
      cases hlast
      unfold MappedField.typeExpression at hends
      split at hends
      · simp [EndsInBrace] at hends
      · exact ⟨rfl, hends⟩
  | cons first rest =>
      rw [hattributes, List.map_cons, List.getLast?_cons_cons, ← List.map_cons] at hlast
      obtain ⟨attr, -, rfl⟩ := List.mem_map.1 (List.mem_of_getLast? hlast)
      exact absurd hends (not_endsInBrace_render attr)

end TableModels.Document

namespace TableModels

/-- The field is written on a line that repair has no use for: its name does not begin like a
mapping, and without attributes the name of its type contains no brace. -/
structure MappedField.StaysApart (field : MappedField) : Prop where
  name : '@' ∉ field.name.toList
  type : field.attributes = [] → '\x7d' ∉ field.fieldType.name.toList

namespace Document

/-! ### The lines of a document -/

/-- The line neither ends in a brace nor begins like one that maps a table. -/
def IsApart (line : String) : Prop :=
  ¬ MapsTable line ∧ ¬ EndsInBrace line

theorem not_mapsTable_fieldLine {field : MappedField} (h : '@' ∉ field.name.toList) (width : Nat) :
    ¬ MapsTable (fieldLine width field) := by
  intro hmaps
  obtain ⟨later, heq⟩ := hmaps.exists_eq (by simp [fieldLine, Text.padRight]; rfl)
  cases hname : field.name.toList with
  | nil =>
      rw [hname] at heq
      cases hspaces : width - field.name.length <;> simp [hspaces, List.replicate_succ] at heq
  | cons c rest =>
      rw [hname] at heq
      obtain ⟨rfl, -⟩ := List.cons.inj heq
      apply h
      rw [hname]
      exact List.mem_cons_self

theorem not_endsInBrace_fieldLine {field : MappedField}
    (h : field.attributes = [] → ¬ EndsInBrace field.fieldType.name) (width : Nat) :
    ¬ EndsInBrace (fieldLine width field) := by
  intro hends
  obtain hdefinition | ⟨-, hspace⟩ := EndsInBrace.of_append hends
  · obtain ⟨hattributes, hbrace⟩ := endsInBrace_typeName hdefinition
    exact h hattributes hbrace
  · exact absurd hspace (not_endsInBrace_append _ (by decide) (by decide))

theorem isApart_fieldLine {field : MappedField} (h : field.StaysApart) (width : Nat) :
    IsApart (fieldLine width field) := by
  constructor
  · exact not_mapsTable_fieldLine h.name width
  · apply not_endsInBrace_fieldLine
    intro hattributes hends
    exact h.type hattributes (List.mem_of_getLast? hends)

theorem isApart_indexLine (index : IndexDeclaration) : IsApart (indexLine index) :=
  ⟨not_mapsTable_indexLine index, not_endsInBrace_indexLine index⟩

theorem isChain_of_forall_not_mapsTable {written : List String}
    (h : ∀ line ∈ written, ¬ MapsTable line) : written.IsChain KeepsBraces := by
  induction written with
  | nil => exact List.isChain_nil
  | cons line rest ih =>
      rw [List.forall_mem_cons] at h
      apply List.isChain_cons.2
      exact ⟨fun next hnext _ => h.2 next (List.mem_of_head? hnext), ih h.2⟩

/-- The line before the mapping line of a model is that of an index, of a field or of the opening,
and none of them ends in a brace. -/
theorem isChain_modelLines {width : Nat} {model : ModelDeclaration}
    (h : ∀ field ∈ model.fields, IsApart (fieldLine width field)) :
    (modelLines width model).IsChain KeepsBraces := by
  let opening := "model " ++ model.name ++ " \x7b"
  let members := model.fields.map (fieldLine width) ++ model.indexes.map indexLine
  have hinner : ∀ line ∈ opening :: members, IsApart line := by
    simp only [members, List.forall_mem_cons, List.forall_mem_append, List.forall_mem_map]
    refine ⟨⟨?_, ?_⟩, h, fun index _ => isApart_indexLine index⟩
    · exact not_mapsTable_of_getElem? (by simp [opening])
    · exact not_endsInBrace_append _ (by decide) (by decide)
  have hcomment : ¬ MapsTable ("/// " ++ model.name) := not_mapsTable_of_getElem? (by simp)
  have hlines : modelLines width model =
      (("/// " ++ model.name) :: opening :: members) ++ [tableLine model.tableName, "\x7d"] := by
    simp [modelLines, opening, members]
  rw [hlines]
  apply List.IsChain.append
  · apply isChain_of_forall_not_mapsTable
    exact List.forall_mem_cons.2 ⟨hcomment, fun line hline => (hinner line hline).1⟩
  · exact List.isChain_pair.2 fun _ => by decide
  · intro last hlast next _ hends
    rw [List.getLast?_cons_cons] at hlast
    exact absurd hends (hinner last (List.mem_of_getLast? hlast)).2

/-- A blank line stands before each model, so nothing that ends before it matters. -/
theorem isChain_append_models {width : Nat} {models : List ModelDeclaration}
    (h : ∀ model ∈ models, ∀ field ∈ model.fields, IsApart (fieldLine width field))
    {before : List String}
    (hbefore : before.IsChain KeepsBraces) :
    (before ++ models.flatMap fun model => "" :: modelLines width model).IsChain KeepsBraces := by
  induction models generalizing before with
  | nil => simpa using hbefore
  | cons model rest ih =>
      rw [List.forall_mem_cons] at h
      rw [List.flatMap_cons, ← List.append_assoc]
      apply ih h.2
      apply hbefore.append
      · apply List.isChain_cons.2
        exact ⟨fun _ _ hends => absurd hends (by decide), isChain_modelLines h.1⟩
      · intro _ _ next hnext _
        cases hnext
        decide

/-- In the lines of a document no brace stands before a mapping line. -/
theorem isChain_lines {header : Header} {width : Nat} {enums : List EnumDeclaration}
    {models : List ModelDeclaration} {excludedCount : Nat}
    (h : ∀ model ∈ models, ∀ field ∈ model.fields, IsApart (fieldLine width field)) :
    (lines header width enums models excludedCount).IsChain KeepsBraces := by
  apply isChain_append_models h
  apply isChain_of_forall_not_mapsTable
  have hcomments : ∀ line ∈ ["", "// Enums", "// Models", "\x7d"], ¬ MapsTable line := by decide
  simp only [List.forall_mem_append, List.forall_mem_flatMap, List.forall_mem_cons] at hcomments ⊢
  obtain ⟨hblank, henums, hmodels, hbrace, -⟩ := hcomments
  refine ⟨⟨⟨not_mapsTable_of_mem_headerLines, hblank, henums, List.forall_mem_nil _⟩, ?_⟩, hblank,
    hmodels, List.forall_mem_nil _⟩
  intro declaration _
  simp only [enumLines, List.cons_append, List.forall_mem_cons, List.forall_mem_append,
    List.forall_mem_map]
  refine ⟨hblank, not_mapsTable_of_getElem? (by simp), ?_, hbrace, List.forall_mem_nil _⟩
  exact fun value _ => not_mapsTable_valueLine value

/-- A document whose lines contain no line feed is what it was written as after its repair. -/
theorem repair_emit {header : Header} {width : Nat} {enums : List EnumDeclaration}
    {models : List ModelDeclaration} {excludedCount : Nat}
    (h : ∀ model ∈ models, ∀ field ∈ model.fields, IsApart (fieldLine width field))
    (hflat : ∀ line ∈ lines header width enums models excludedCount, IsFlat line) :
    repair (emit header width enums models excludedCount) =
      ⟨emit header width enums models excludedCount, 0⟩ :=
  repair_eq_self (not_infix_ofLines hflat (isChain_lines h))

/-- A document is read back line by line exactly when no text between its quotes contains a line
feed. -/
theorem linesOf_repair_iff {header : Header} (hheader : HasFlatHeader header) {width : Nat}
    {enums : List EnumDeclaration} {models : List ModelDeclaration}
    (hnames : HasFlatNames enums models)
    (h : ∀ model ∈ models, ∀ field ∈ model.fields, field.StaysApart) {excludedCount : Nat} :
    linesOf (repair (emit header width enums models excludedCount)).text =
        lines header width enums models excludedCount ++ [""] ↔
      HasFlatTexts enums models := by
  rw [← flat_lines_iff hheader width hnames excludedCount]
  constructor
  · intro hlines line hline
    apply isFlat_of_mem_linesOf
    rw [hlines]
    exact List.mem_append_left _ hline
  · intro hflat
    have hapart := fun model hmodel field hfield =>
      isApart_fieldLine (h model hmodel field hfield) width
    rw [repair_emit hapart hflat, emit, linesOf_ofLines hflat]

theorem at_notMem_of_isIdentifier {name : String} (h : isIdentifier name = true) :
    '@' ∉ name.toList := by
  intro hmem
  exact absurd (isIdentifierRest_of_isIdentifier h _ hmem) (by decide)

/-- Repair never touches a document as it is emitted. No line feed may be in any text, fields must
go by identifiers, and the name of a type must not end in a brace. -/
theorem repair_keeps_emitted {header : Header} {width : Nat} {enums : List EnumDeclaration}
    {models : List ModelDeclaration} {excludedCount : Nat} (hheader : HasFlatHeader header)
    (hnames : HasFlatNames enums models) (htexts : HasFlatTexts enums models)
    (hfields : ∀ model ∈ models, ∀ field ∈ model.fields, isIdentifier field.name = true)
    (htypes : ∀ model ∈ models, ∀ field ∈ model.fields, ¬ EndsInBrace field.fieldType.name) :
    repair (emit header width enums models excludedCount) =
      ⟨emit header width enums models excludedCount, 0⟩ := by
  apply repair_emit
  · intro model hmodel field hfield
    constructor
    · exact not_mapsTable_fieldLine
        (at_notMem_of_isIdentifier (hfields model hmodel field hfield)) width
    · exact not_endsInBrace_fieldLine (fun _ => htypes model hmodel field hfield) width
  · exact (flat_lines_iff hheader width hnames excludedCount).2 htexts

/-- A model whose texts hold braces and the beginning of a mapping line: its field, which is wider
than the column, ends in a type with a brace inside, and its table and its index go by texts that
look like the ends of blocks. -/
def bracedModel : ModelDeclaration where
  name := "Users"
  sourceIdent := "users"
  tableName := "\x7d  @@map(\"t\")\x7d"
  fields := [⟨"createdAt", .enumeration "A\x7dB", [], false⟩, ⟨"bio", .string, [.map "\x7d"], true⟩]
  indexes := [⟨.index, some "  @@map(\"\x7d", ["createdAt"]⟩]

theorem repair_keeps_emitted_braces :
    repair (emit {} 4 [⟨"Kind", ["a\x7d", "b"]⟩] [bracedModel] 0) =
      ⟨emit {} 4 [⟨"Kind", ["a\x7d", "b"]⟩] [bracedModel] 0, 0⟩ := by
  apply repair_keeps_emitted
  · constructor <;> decide
  · constructor <;> decide
  · constructor <;> decide
  · decide
  · decide

end Document

end TableModels
