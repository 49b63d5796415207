import TableModels.Script.Symbol

/-! # Types in a script

The grammar of type annotations. No table is declared inside a type, so the members of an object
type and whatever else stands in brackets are taken as a whole. -/

namespace TableModels.Script.ScriptRule

open Rule

/-- A list of type arguments. -/
def typeArguments : ScriptRule :=
  node .phrase (sequence [mark "<", commas (symbol .type), mark ">"])

/-- The type behind a colon. -/
def annotation : ScriptRule :=
  node .phrase (seq (mark ":") (symbol .type))

/-- The words that a type may begin with before another type. -/
def typeOperators : List String :=
  ["keyof", "unique", "readonly", "infer", "asserts"]

/-- A token that a type may begin with. -/
def beginsType (token : Token) : Bool :=
  token.kind == .word || token.kind == .quote || token.kind == .number ||
    token.isMarkOf ["(", "[", "\x7b", "\x60", "<", "-"]

/-- A name with the names of its parts. -/
def typeName : ScriptRule :=
  seq anyWord (many (seq (mark ".") anyWord))

/-- The text of a string. -/
def string : ScriptRule :=
  node .string (sequence [
    token (·.kind == .quote),
    many (choice [
      node .fragment (token (·.kind == .fragment)),
      node .escape (token (·.kind == .escape))]),
    token (·.kind == .quote)])

/-- A type without operators. -/
def primaryType : ScriptRule :=
  choice [
    sequence [
      word "typeof", typeName, optional (seq sameLine (groupIn "(")),
      many (seq (mark ".") anyWord), optional typeArguments],
    sequence [word "import", groupIn "(", many (seq (mark ".") anyWord), optional typeArguments],
    sequence [typeName, optional (seq sameLine typeArguments)],
    sequence [optional (mark "-"), node .phrase (token (·.kind == .number))],
    string,
    symbol .template,
    group]

/-- A type with the operators before it and the array marks behind it. -/
def unaryType : ScriptRule :=
  sequence [
    many (seq (token (·.isWordOf typeOperators)) (seq sameLine (ahead (token beginsType)))),
    primaryType,
    many (seq sameLine (groupIn "["))]

/-- Types joined by marks. -/
def joinedType : ScriptRule :=
  let joint := token (·.isMarkOf ["|", "&"])
  sequence [optional joint, unaryType, many (seq joint unaryType)]

/-- The type of a function. -/
def functionType : ScriptRule :=
  sequence [
    optional (word "abstract"), optional (word "new"), optional typeParameters, groupIn "(",
    mark "=>", symbol .type]

/-- A type that says what another type or value is. -/
def predicateType : ScriptRule :=
  sequence [optional (word "asserts"), anyWord, sameLine, word "is", symbol .type]

/-- A type. -/
def type : ScriptRule :=
  choice [
    functionType,
    predicateType,
    sequence [
      joinedType,
      optional (sequence [
        word "extends", joinedType, mark "?", symbol .type, mark ":", symbol .type])]]

end TableModels.Script.ScriptRule
