import TableModels.Script.ExpressionRules

/-! # Statements in a script

The grammar of statements and declarations. A statement ends at a semicolon, before a closing brace,
at the end of the script, and at the end of a line unless the next token continues the statement.

A statement that follows no rule reaches as far as its brackets tell, where a closing bracket also
closes the brackets inside it that were left open. If such a statement declares a name as a call,
then it still is a declaration, and its call is damaged. -/

namespace TableModels.Script.ScriptRule

open Rule

/-- The marks that continue a statement on the next line. -/
def continuingMarks : List String :=
  ["\x60", ",", ":", ";", "*", "**", "*=", "**=", "%", "%=", ">", "<", "<=", "<<", "<<=", "=", "==",
    "===", "=>", "[", "(", "?", "??", "??=", "?.", "^", "^=", "|", "||", "|=", "||=", "&", "&&",
    "&=", "&&=", "/", "/=", ".", "...", "+", "+=", "-", "-=", "!=", "!=="]

/-- The token continues a statement even at the start of a line. -/
def continues (token : Token) : Bool :=
  token.isMarkOf continuingMarks || token.isWordOf ["in", "instanceof"] || token.kind == .pattern

/-- A statement may end before the tokens without a semicolon. -/
def endsBefore (tokens : List Token) : Bool :=
  tokens.head?.all fun next => next.isMark "\x7d" || (next.startsLine && !continues next)

/-- The end of a statement. -/
def ending : ScriptRule :=
  either (mark ";") (guard endsBefore)

/-- The keyword of a lexical declaration. -/
def lexicalKeyword : ScriptRule :=
  either (word "const") (seq (word "let") (ahead (choice [name, mark "[", mark "\x7b"])))

/-- A declared name with its type. -/
def declared : ScriptRule :=
  sequence [binding, optional (mark "!"), optional annotation]

/-- A declared name with its type and value. -/
def declarator : ScriptRule :=
  node .declarator (seq declared (optional (seq (mark "=") (symbol .expression))))

/-- A lexical declaration that ends as given. -/
def lexicalDeclaration (finish : ScriptRule) : ScriptRule :=
  node .lexicalDeclaration (sequence [lexicalKeyword, separated "," declarator, finish])

/-- A declaration of variables that ends as given. -/
def variableDeclaration (finish : ScriptRule) : ScriptRule :=
  node .phrase (sequence [word "var", separated "," declarator, finish])

/-- A declaration of an enumeration. -/
def enumeration : ScriptRule :=
  node .phrase (sequence [optional (word "const"), word "enum", name, groupIn "\x7b"])

/-- A declaration of an interface. -/
def interface : ScriptRule :=
  node .phrase (sequence [
    word "interface", name, optional typeParameters,
    optional (seq (word "extends") (separated "," (symbol .type))), groupIn "\x7b"])

/-- A declaration of a type. -/
def typeAlias : ScriptRule :=
  node .phrase (sequence [
    word "type", name, optional typeParameters, mark "=", symbol .type, ending])

/-- A declaration of a namespace. -/
def namespaceDeclaration : ScriptRule :=
  node .phrase (either
    (sequence [
      token (·.isWordOf ["namespace", "module"]), sameLine, either string typeName,
      either (symbol .block) ending])
    (seq (word "global") (symbol .block)))

/-- A declaration of a function, with or without a body. -/
def functionDeclaration : ScriptRule :=
  node .phrase (sequence [
    optional (seq (word "async") sameLine), word "function", optional (mark "*"),
    optional (node .name name), optional typeParameters, symbol .parameters, optional annotation,
    either (symbol .block) ending])

/-- The names in braces that are imported or exported, and where they come from. -/
def source : ScriptRule :=
  sequence [
    word "from", string,
    optional (sequence [token (·.isWordOf ["with", "assert"]), sameLine, groupIn "\x7b"])]

/-- An import. -/
def importDeclaration : ScriptRule :=
  let names := choice [
    groupIn "\x7b", sequence [mark "*", word "as", name],
    sequence [name, optional (seq (mark ",") (either (groupIn "\x7b")
      (sequence [mark "*", word "as", name])))]]
  node .phrase (seq (word "import") (choice [
    sequence [string, ending],
    sequence [optional (word "type"), names, source, ending],
    sequence [names, source, ending],
    sequence [optional (word "type"), name, mark "=", symbol .expression, ending]]))

/-- An export. -/
def exportDeclaration : ScriptRule :=
  node .phrase (sequence [many decorator, word "export", choice [
    sequence [word "default", choice [
      functionDeclaration, classDefinition, interface, seq expressions ending]],
    sequence [optional (word "type"), mark "*", optional (seq (word "as") (either anyWord string)),
      source, ending],
    sequence [optional (word "type"), groupIn "\x7b", optional source, ending],
    sequence [mark "=", expressions, ending],
    sequence [word "as", word "namespace", name, ending],
    symbol .statement]])

/-- The head of a loop over a collection, in its parentheses. -/
def collectionHead : ScriptRule :=
  sequence [
    mark "(", choice [
      seq (either lexicalKeyword (word "var")) binding,
      symbol .operand],
    token (·.isWordOf ["of", "in"]), expressions, mark ")"]

/-- The head of a loop with a counter, in its parentheses. -/
def counterHead : ScriptRule :=
  sequence [
    mark "(", choice [
      lexicalDeclaration (mark ";"), variableDeclaration (mark ";"), seq expressions (mark ";"),
      mark ";"],
    optional expressions, mark ";", optional expressions, mark ")"]

/-- A condition in its parentheses. -/
def condition : ScriptRule :=
  sequence [mark "(", expressions, mark ")"]

/-- A case of a switch. -/
def switchCase : ScriptRule :=
  node .phrase (sequence [
    either (seq (word "case") expressions) (word "default"), mark ":",
    many (seq (guard fun tokens => !tokens.head?.any (·.isWordOf ["case", "default"]))
      (symbol .statement))])

/-- A return. -/
def returnStatement : ScriptRule :=
  node .returnStatement (seq (word "return") (either ending (seq expressions ending)))

/-- A statement that is opened by a keyword. -/
def controlStatement : ScriptRule :=
  choice [
    sequence [word "if", condition, symbol .statement,
      optional (seq (word "else") (symbol .statement))],
    sequence [word "for", optional (word "await"), either collectionHead counterHead,
      symbol .statement],
    sequence [word "while", condition, symbol .statement],
    sequence [word "do", symbol .statement, word "while", condition, optional (mark ";")],
    sequence [word "with", condition, symbol .statement],
    sequence [word "switch", condition, mark "\x7b", many switchCase, mark "\x7d"],
    sequence [word "try", symbol .block,
      optional (sequence [word "catch", optional (sequence [
        mark "(", binding, optional annotation, mark ")"]), symbol .block]),
      optional (seq (word "finally") (symbol .block))],
    sequence [word "throw", expressions, ending],
    sequence [token (·.isWordOf ["break", "continue"]), optional (seq sameLine (node .name name)),
      ending],
    sequence [word "debugger", ending],
    sequence [node .name name, mark ":", symbol .statement]]

/-- A statement that follows the rules. -/
def regularStatement : ScriptRule :=
  choice [
    node .phrase (mark ";"),
    symbol .block,
    enumeration,
    lexicalDeclaration ending,
    variableDeclaration ending,
    importDeclaration,
    exportDeclaration,
    functionDeclaration,
    classDefinition,
    returnStatement,
    node .phrase controlStatement,
    interface,
    typeAlias,
    namespaceDeclaration,
    node .phrase (sequence [word "declare", sameLine, ahead (token (·.kind == .word)),
      symbol .statement]),
    node .phrase (seq expressions ending)]

/-- The brackets that are still open behind a closing token, which closes the innermost bracket of
its kind with all those inside it. -/
def closeBracket (token : Token) (opened : List Token) : List Token :=
  if opened.any token.closesWhat then
    (opened.dropWhile (!token.closesWhat ·)).tail
  else
    opened

/-- The number of tokens that a statement reaches over inside the open brackets, if all of them are
closed. -/
def reachSize? (opened : List Token) : List Token → Option Nat
  | [] => if opened.isEmpty then some 0 else none
  | next :: rest =>
      if next.opens then
        (reachSize? (next :: opened) rest).map (· + 1)
      else if next.closes then
        if opened.isEmpty then some 0 else (reachSize? (closeBracket next opened) rest).map (· + 1)
      else if opened.isEmpty && next.isMark ";" then
        some 1
      else if opened.isEmpty && next.startsLine && !continues next then
        some 0
      else
        (reachSize? opened rest).map (· + 1)

/-- The number of tokens of the statement at the head of the tokens, by its brackets alone. -/
def statementSize? : List Token → Option Nat
  | [] => none
  | next :: rest =>
      if next.closes then none
      else if next.isMark ";" then some 1
      else (reachSize? (if next.opens then [next] else []) rest).map (· + 1)

/-- The tokens of a statement that follow no rule. -/
def remainder : ScriptRule :=
  node .error (run statementSize?)

/-- A statement that follows no rule. -/
def damagedStatement : ScriptRule :=
  either
    (node .lexicalDeclaration (seq lexicalKeyword (node .declarator (sequence [
      declared, mark "=", node .call (sequence [node .name name, ahead (mark "("), remainder])]))))
    remainder

/-- A statement. -/
def statement : ScriptRule :=
  either regularStatement damagedStatement

/-- Statements in braces. -/
def block : ScriptRule :=
  node .block (sequence [mark "\x7b", many (symbol .statement), mark "\x7d"])

/-- The words that may stand before the name of a class member. -/
def memberWords : List String :=
  ["public", "private", "protected", "static", "abstract", "override", "readonly", "declare",
    "accessor", "async", "get", "set"]

/-- A member of a class. -/
def classMember : ScriptRule :=
  choice [
    mark ";",
    node .phrase (seq (many decorator) (choice [
      seq (word "static") (symbol .block),
      methodOf memberWords (either (symbol .block) ending),
      sequence [
        many (modifier memberWords), memberName, optional (token (·.isMarkOf ["?", "!"])),
        optional annotation, optional (seq (mark "=") (symbol .expression)), ending],
      sequence [many (modifier memberWords), groupIn "[", annotation, ending]]))]

/-- The members of a class in braces. -/
def classBody : ScriptRule :=
  node .phrase (sequence [mark "\x7b", many classMember, mark "\x7d"])

end TableModels.Script.ScriptRule
