import TableModels.Script.Document
import TableModels.Source.Extraction

/-! # Reading the tables of a document

A table is declared by a lexical declaration whose value calls the table constructor of the dialect.
The first argument is the name of the table, the second an object with an entry for each field, and
the third, if there is one, tells the indexes. Each declarator with such a call yields a table or,
when the call is damaged or has another shape, one skipped line. An entry that is not of the form
`name: expression` yields a skipped line of its own. -/

namespace TableModels.Source

open Script (Tree NodeKind)

/-- What is read from a declarator that calls the table constructor. -/
inductive TableReading where
  /-- A table, with the entries of its object that are not fields. -/
  | table (declaration : TableDeclaration) (skipped : List SkippedLine)
  | rejected (line : SkippedLine)
  deriving DecidableEq

namespace TableReading

/-- The table that was read. -/
def table? : TableReading → Option TableDeclaration
  | table declaration _ => some declaration
  | rejected _ => none

/-- The lines that were skipped. -/
def skipped : TableReading → List SkippedLine
  | table _ skipped => skipped
  | rejected line => [line]

end TableReading

/-- The value of a declarator. -/
def declaratorValue? (declarator : Tree) : Option Tree :=
  match declarator.children.dropWhile (!·.isMark "=") with
  | _ :: value :: _ => some value
  | _ => none

/-- The value of a declarator, if it is a call of the given function. -/
def callOf? (function : String) (declarator : Tree) : Option Tree :=
  (declaratorValue? declarator).filter fun value =>
    value.isKind .call && value.children.head?.any fun called => called.text == function.toList

/-- The text that a string or a template without substitutions gives to a table: for a string its
first run of characters that stand for themselves, for a template all that is between its back
quotes. -/
def literalText? (tree : Tree) : Option (List Char) :=
  let text? : Option (List Char) :=
    match tree.kind? with
    | some .string => (tree.children.find? (·.isKind .fragment)).map Tree.text
    | some .template =>
        if tree.children.any (·.isKind .substitution) then none
        else some (Text.trimBy (· == '\x60') tree.text)
    | _ => none
  text?.filter (!·.isEmpty)

/-- The field that an entry of an object declares. -/
def fieldOf? (entry : Tree) : Option FieldDeclaration :=
  match entry.children.head?, entry.children.getLast? with
  | some key, some value =>
      if entry.isKind .pair && key.isKind .propertyName then
        some ⟨String.ofList key.text, String.ofList value.flatText, entry.line⟩
      else
        none
  | _, _ => none

/-- The skipped line of an entry that declares no field. -/
def skippedLineOf? (ident : String) (entry : Tree) : Option SkippedLine :=
  match fieldOf? entry with
  | some _ => none
  | none => some ⟨ident, entry.line, String.ofList entry.flatText⟩

/-- What the elements of an index section are looked for in, when it is a function, a parenthesized
expression or a block: the body of the function, the inner expression, or the value that the block
returns. -/
def sectionBody? (tree : Tree) : Option (Option Tree) :=
  match tree.kind? with
  | some .arrowFunction | some .functionExpression => some tree.children.getLast?
  | some .parenthesized => some tree.elements.head?
  | some .block =>
      some ((tree.children.find? fun statement => statement.isKind .returnStatement).bind
        fun statement => statement.elements.head?)
  | _ => none

theorem sizeOf_lt_of_sectionBody? {tree inner : Tree} (h : sectionBody? tree = some (some inner)) :
    sizeOf inner < sizeOf tree := by
  unfold sectionBody? at h
  split at h <;> simp only [Option.some.injEq, reduceCtorEq] at h
  · exact Tree.sizeOf_lt_of_mem_children (List.mem_of_getLast? h)
  · exact Tree.sizeOf_lt_of_mem_children (List.mem_of_getLast? h)
  · exact Tree.sizeOf_lt_of_mem_children
      (Tree.mem_children_of_mem_elements (List.mem_of_head? h))
  · obtain ⟨statement, hfind, hhead⟩ := Option.bind_eq_some_iff.1 h
    exact Nat.lt_trans
      (Tree.sizeOf_lt_of_mem_children (Tree.mem_children_of_mem_elements (List.mem_of_head? hhead)))
      (Tree.sizeOf_lt_of_mem_children (List.mem_of_find?_eq_some hfind))

/-- The elements of an index section: the elements of an object or list, looked for inside
functions, parentheses and blocks, and otherwise the section itself. -/
def indexElements (tree : Tree) : List Tree :=
  match _h : sectionBody? tree with
  | some (some inner) => indexElements inner
  | some none => []
  | none => if tree.isKind .object || tree.isKind .array then tree.elements else [tree]
termination_by sizeOf tree
decreasing_by exact sizeOf_lt_of_sectionBody? _h

/-- The descriptor defines an index. -/
def definesIndex (descriptor : String) : Bool :=
  Text.includes descriptor "index(" || Text.includes descriptor "uniqueIndex("

/-- The descriptors of an index section. -/
def indexDescriptors (indexes : Tree) : List String :=
  ((indexElements indexes).map fun element => String.ofList element.flatText).filter definesIndex

/-- The table that a call of the table constructor declares. -/
def tableOf? (includeIndexes : Bool) (ident : String) (line : Nat) (call : Tree) :
    Option TableReading :=
  if call.isDamaged then
    none
  else
    match (call.children.getLast?.map Tree.elements).getD [] with
    | first :: body :: others =>
        match literalText? first, body.isKind .object with
        | some name, true =>
            let indexes := others.head?.filter fun _ => includeIndexes
            some (.table
              { ident := ident
                tableName := String.ofList name
                line := line
                fields := body.elements.filterMap fieldOf?
                indexBlock := indexes.map fun tree => String.ofList tree.text
                indexDescriptors := (indexes.map indexDescriptors).getD [] }
              (body.elements.filterMap (skippedLineOf? ident)))
        | _, _ => none
    | _ => none

/-- What is read from a declarator of a declaration. -/
def readDeclarator? (dialect : Dialect) (includeIndexes : Bool) (declaration declarator : Tree) :
    Option TableReading :=
  match callOf? dialect.tableConstructor declarator, declarator.children.head? with
  | some call, some name =>
      let ident := String.ofList name.text
      match tableOf? includeIndexes ident declaration.line call with
      | some reading => some reading
      | none =>
          let header := Text.trim (Text.firstLine declaration.text)
          some (.rejected ⟨ident, declaration.line, String.ofList header⟩)
  | _, _ => none

/-- What is read from the declarators of a declaration, in order. -/
def readDeclaration (dialect : Dialect) (includeIndexes : Bool) (declaration : Tree) :
    List TableReading :=
  (declaration.children.filter (·.isKind .declarator)).filterMap
    (readDeclarator? dialect includeIndexes declaration)

/-- What is read from a tree, in the order of its declarations. -/
def readTree (dialect : Dialect) (includeIndexes : Bool) (tree : Tree) : List TableReading :=
  (tree.nodesOf .lexicalDeclaration).flatMap (readDeclaration dialect includeIndexes)

end TableModels.Source

namespace TableModels

/-- What is extracted from a document. -/
def extract (source : String) (options : ExtractionOptions) : Extraction :=
  let dialect := options.dialect.resolve source
  let readings := Source.readTree dialect options.includeIndexes (Script.parse source.toList)
  ⟨dialect, readings.filterMap Source.TableReading.table?,
    readings.flatMap Source.TableReading.skipped⟩

end TableModels
