import TableModels.Script.TypeRules

/-! # Expressions in a script

The grammar of expressions. Calls are told apart from all other operations; the binding strength of
operators is not, because nothing that is read from a script depends on it. In a list of arguments,
of items or of entries an element may be missing between two commas. -/

namespace TableModels.Script.ScriptRule

open Rule

/-- Expressions with commas between them. -/
def expressions : ScriptRule :=
  folded (symbol .expression) (node .phrase (seq (mark ",") (symbol .expression)))

/-- A list that is spread into another. -/
def spread : ScriptRule :=
  node .phrase (seq (mark "...") (symbol .expression))

/-- An element of a list. -/
def listElement : ScriptRule :=
  either spread (symbol .expression)

/-- The name of a member. -/
def memberName : ScriptRule :=
  choice [
    node .propertyName (token fun next => next.kind == .word && next.text.head? != some '#'),
    anyWord,
    string,
    node .phrase (token (·.kind == .number)),
    node .phrase (sequence [mark "[", symbol .expression, mark "]"])]

/-- A method with its parameters and its body. -/
def methodOf (words : List String) (body : ScriptRule) : ScriptRule :=
  sequence [
    many (modifier words), optional (mark "*"), memberName, optional (mark "?"),
    optional typeParameters, symbol .parameters, optional annotation, body]

/-- An entry of an object. -/
def objectEntry : ScriptRule :=
  choice [
    spread,
    node .phrase (methodOf ["async", "get", "set", "static"] (symbol .block)),
    node .pair (sequence [memberName, mark ":", symbol .expression]),
    node .phrase (sequence [name, mark "=", symbol .expression]),
    node .name name]

/-- An object. -/
def object : ScriptRule :=
  node .object (sequence [mark "\x7b", commas objectEntry, mark "\x7d"])

/-- An array. -/
def array : ScriptRule :=
  node .array (sequence [mark "[", commas listElement, mark "]"])

/-- The arguments of a call. -/
def arguments : ScriptRule :=
  node .arguments (sequence [mark "(", commas listElement, mark ")"])

/-- A template. -/
def template : ScriptRule :=
  node .template (sequence [
    mark "\x60",
    many (choice [
      node .fragment (token (·.kind == .fragment)),
      node .escape (token (·.kind == .escape)),
      node .substitution (sequence [mark "$\x7b", expressions, mark "\x7d"])]),
    mark "\x60"])

/-- A place at which something is declared: a name, or a pattern taken as a whole. -/
def binding : ScriptRule :=
  choice [node .name name, node .phrase (either (groupIn "\x7b") (groupIn "["))]

/-- A decorator. -/
def decorator : ScriptRule :=
  node .phrase (seq (mark "@") (symbol .operand))

/-- A parameter of a function. -/
def parameter : ScriptRule :=
  node .phrase (sequence [
    many decorator,
    many (modifier ["public", "private", "protected", "override", "readonly"]),
    optional (mark "..."),
    either binding (node .name (word "this")),
    optional (mark "?"),
    optional annotation,
    optional (seq (mark "=") (symbol .expression))])

/-- The parameters of a function. -/
def parameters : ScriptRule :=
  node .phrase (sequence [mark "(", commas parameter, mark ")"])

/-- The body of an arrow function. -/
def arrowBody : ScriptRule :=
  either (symbol .block) (symbol .expression)

/-- An arrow function. -/
def arrowFunction : ScriptRule :=
  node .arrowFunction (either
    (sequence [
      optional (seq (word "async") (seq sameLine (ahead name))), node .name name, mark "=>",
      arrowBody])
    (sequence [
      ahead (sequence [
        optional (word "async"), optional typeParameters, groupIn "(",
        either (mark "=>") (seq annotation (mark "=>"))]),
      optional (word "async"), optional typeParameters, symbol .parameters, optional annotation,
      mark "=>", arrowBody]))

/-- The part of a function behind its keyword. -/
def functionRest : ScriptRule :=
  sequence [
    optional (node .name name), optional typeParameters, symbol .parameters, optional annotation,
    symbol .block]

/-- A function that is not an arrow function. -/
def function : ScriptRule :=
  let keyword := seq (optional (seq (word "async") sameLine)) (word "function")
  either
    (node .phrase (sequence [keyword, mark "*", functionRest]))
    (node .functionExpression (seq keyword functionRest))

/-- What a class is derived from. -/
def heritage : ScriptRule :=
  seq
    (optional (sequence [word "extends", symbol .operand, optional typeArguments]))
    (optional (seq (word "implements") (separated "," (symbol .type))))

/-- A class. -/
def classDefinition : ScriptRule :=
  node .phrase (sequence [
    many decorator, optional (word "abstract"), word "class",
    optional (seq (guard fun tokens => !tokens.head?.any (·.isWord "implements"))
      (node .name name)),
    optional typeParameters, heritage, symbol .classBody])

/-- An object that is made from a class. -/
def instantiation : ScriptRule :=
  node .phrase (seq (word "new") (either (seq (mark ".") anyWord) (symbol .operand)))

/-- An operand without operators. -/
def primary : ScriptRule :=
  choice [
    function,
    classDefinition,
    instantiation,
    node .name name,
    node .name (token (·.isWordOf Token.valueWords)),
    node .name (seq (word "import") (ahead (token (·.isMarkOf ["(", "."])))),
    node .phrase (token fun next => next.kind == .number || next.kind == .pattern),
    string,
    symbol .template,
    symbol .array,
    symbol .object,
    node .parenthesized (sequence [mark "(", expressions, optional annotation, mark ")"])]

/-- A token behind which a list of type arguments may stand without a call. -/
def endsInstantiation (token : Token) : Bool :=
  token.isMarkOf [")", "]", "\x7d", ",", ";", ":", ".", "?."]

/-- What may follow an operand. -/
def suffix : ScriptRule :=
  choice [
    node .call (symbol .arguments),
    node .call (symbol .template),
    node .call (seq (mark "?.") (symbol .arguments)),
    node .call (sequence [mark "?.", typeArguments, symbol .arguments]),
    node .call (seq typeArguments (either (symbol .arguments) (symbol .template))),
    node .phrase (seq (token (·.isMarkOf [".", "?."])) anyWord),
    node .phrase (sequence [
      optional (mark "?."), mark "[", expressions, mark "]"]),
    node .phrase (seq sameLine (token (·.isMarkOf ["!", "++", "--"]))),
    node .phrase (seq typeArguments (guard fun tokens => tokens.head?.all endsInstantiation))]

/-- The marks and words that stand before an operand. -/
def prefixMarks : List String :=
  ["!", "~", "+", "-", "++", "--"]

/-- The words that stand before an operand. -/
def prefixWords : List String :=
  ["typeof", "void", "delete"]

/-- A token that an operand may begin with. -/
def beginsOperand (token : Token) : Bool :=
  match token.kind with
  | .word => token.isName || token.isWordOf (Token.valueWords ++ ["function", "class", "new",
      "import", "typeof", "void", "delete"])
  | .mark => token.isMarkOf ["(", "[", "\x7b", "\x60", "!", "~", "<"]
  | .number | .quote | .pattern => true
  | .fragment | .escape | .invalid => false

/-- An operand with the operators before it. -/
def operand : ScriptRule :=
  choice [
    arrowFunction,
    node .phrase (seq (token (·.isMarkOf prefixMarks)) (symbol .operand)),
    node .phrase (seq (token (·.isWordOf prefixWords)) (symbol .operand)),
    node .phrase (sequence [word "await", ahead (token beginsOperand), symbol .operand]),
    node .phrase (sequence [
      word "yield", optional (seq sameLine (seq (optional (mark "*")) (symbol .expression)))]),
    node .phrase (sequence [mark "<", symbol .type, mark ">", symbol .operand]),
    folded primary suffix]

/-- The marks between two operands. -/
def binaryMarks : List String :=
  ["+", "-", "*", "/", "%", "**", "&", "|", "^", "&&", "||", "??", "==", "===", "!=", "!==", "<",
    "<=", "<<"]

/-- The marks that assign. -/
def assignmentMarks : List String :=
  ["=", "+=", "-=", "*=", "/=", "%=", "**=", "<<=", "&=", "|=", "^=", "&&=", "||=", "??="]

/-- What may follow an operand with the operators before it. -/
def operation : ScriptRule :=
  choice [
    node .phrase (sequence [
      mark "?", symbol .expression, mark ":", symbol .expression]),
    node .phrase (seq (token (·.isMarkOf assignmentMarks)) (symbol .expression)),
    node .phrase (seq (token (·.isMarkOf binaryMarks)) (symbol .operand)),
    node .phrase (seq (token (·.isWordOf ["in", "instanceof"])) (symbol .operand)),
    node .phrase (sequence [
      mark ">", many (mark ">"), optional (mark "="), symbol .operand]),
    node .phrase (sequence [
      sameLine, token (·.isWordOf ["as", "satisfies"]), symbol .type])]

/-- An expression without commas outside of brackets. -/
def expression : ScriptRule :=
  folded (symbol .operand) operation

end TableModels.Script.ScriptRule
