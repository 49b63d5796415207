import TableModels.Script.Lexeme
import TableModels.Script.StatementRules

/-! # The tree of a script

A script is a list of statements. From the first place on at which no statement can be read, not
even by its brackets, its tokens follow no rule. -/

namespace TableModels.Script

/-- The grammar of scripts. -/
def grammar : Symbol → ScriptRule
  | .type => ScriptRule.type
  | .expression => ScriptRule.expression
  | .operand => ScriptRule.operand
  | .arguments => ScriptRule.arguments
  | .template => ScriptRule.template
  | .object => ScriptRule.object
  | .array => ScriptRule.array
  | .parameters => ScriptRule.parameters
  | .block => ScriptRule.block
  | .classBody => ScriptRule.classBody
  | .statement => ScriptRule.statement

/-- How deep the rules may refer to one another for each token. -/
def depthPerToken : Nat := 500

/-- The statements of a script, with closing brackets that close nothing between them. -/
def statements : ScriptRule :=
  .many (.either (.symbol .statement) (.node .error (.token Token.closes)))

/-- The tree of a list of tokens. -/
def treeOf (tokens : List Token) : Tree :=
  match statements.read grammar (depthPerToken * (tokens.length + 1)) tokens with
  | some (trees, []) => .node .document trees
  | some (trees, rest) => .node .document (trees ++ [.node .error (rest.map .leaf)])
  | none => .node .document [.node .error (tokens.map .leaf)]

/-- The tree of a script. -/
def parse (text : List Char) : Tree :=
  treeOf (tokenize text)

end TableModels.Script
