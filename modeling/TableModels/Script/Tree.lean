import TableModels.Script.Token
import TableModels.Text.Squash

/-! # Syntax trees of a script

The leaves of a tree are the tokens of the script in order. A bare leaf is a mark or a keyword;
whatever carries meaning of its own, a single name included, is a node.

## Implementation notes

The parts of a node are found by their places: the function of a call is its first child and the
arguments its last, the key of a pair is its first child and the value its last, and the body of a
function is its last child. -/

namespace TableModels.Script

/-- The kinds of nodes that the reading of tables tells apart. -/
inductive NodeKind where
  | document
  /-- A declaration of constants or of block-scoped variables. -/
  | lexicalDeclaration
  | declarator
  | call
  | arguments
  | string
  | fragment
  | escape
  | template
  | substitution
  | object
  | pair
  /-- A word as the key of a pair. -/
  | propertyName
  | name
  | arrowFunction
  | functionExpression
  | parenthesized
  | block
  | returnStatement
  | array
  /-- Any other construct. -/
  | phrase
  /-- Tokens that follow no rule. -/
  | error
  deriving DecidableEq

/-- A syntax tree. -/
inductive Tree where
  | leaf (token : Token)
  | node (kind : NodeKind) (children : List Tree)

namespace Tree

mutual

/-- The tokens of a tree in order. -/
def tokens : Tree → List Token
  | leaf token => [token]
  | node _ children => tokensOfAll children

/-- The tokens of a list of trees in order. -/
def tokensOfAll : List Tree → List Token
  | [] => []
  | tree :: rest => tokens tree ++ tokensOfAll rest

end

mutual

/-- Some token is in the tree. -/
def holdsToken : Tree → Bool
  | leaf _ => true
  | node _ children => anyHoldsToken children

/-- Some token is in the trees. -/
def anyHoldsToken : List Tree → Bool
  | [] => false
  | tree :: rest => holdsToken tree || anyHoldsToken rest

end

mutual

theorem holdsToken_iff (tree : Tree) : holdsToken tree = true ↔ tokens tree ≠ [] := by
  cases tree with
  | leaf token => simp [holdsToken, tokens]
  | node kind children => exact anyHoldsToken_iff children

theorem anyHoldsToken_iff (trees : List Tree) :
    anyHoldsToken trees = true ↔ tokensOfAll trees ≠ [] := by
  cases trees with
  | nil => simp [anyHoldsToken, tokensOfAll]
  | cons tree rest =>
      have hfirst := holdsToken_iff tree
      have hrest := anyHoldsToken_iff rest
      simp only [anyHoldsToken, tokensOfAll, Bool.or_eq_true, ne_eq, List.append_eq_nil_iff,
        hfirst, hrest]
      constructor
      · rintro (h | h) ⟨h1, h2⟩
        · exact h h1
        · exact h h2
      · intro h
        by_cases h1 : tokens tree = []
        · exact Or.inr fun h2 => h ⟨h1, h2⟩
        · exact Or.inl h1

end

/-- The kind of a node. -/
def kind? : Tree → Option NodeKind
  | leaf _ => none
  | node kind _ => some kind

/-- The tree is a node of the given kind. -/
def isKind (tree : Tree) (kind : NodeKind) : Bool :=
  tree.kind? == some kind

/-- The children of a tree. -/
def children : Tree → List Tree
  | leaf _ => []
  | node _ children => children

/-- The tree is the given mark. -/
def isMark (tree : Tree) (text : String) : Bool :=
  match tree with
  | leaf token => token.isMark text
  | node .. => false

/-- The tree is not a mark or keyword. -/
def isElement (tree : Tree) : Bool :=
  tree.kind?.isSome

/-- The children of a tree that are not marks or keywords. -/
def elements (tree : Tree) : List Tree :=
  tree.children.filter isElement

theorem sizeOf_lt_of_mem_children {tree child : Tree} (h : child ∈ tree.children) :
    sizeOf child < sizeOf tree := by
  cases tree with
  | leaf => simp [children] at h
  | node kind children =>
      have := List.sizeOf_lt_of_mem h
      simp only [Tree.children] at this
      simp only [node.sizeOf_spec]
      omega

theorem mem_children_of_mem_elements {tree child : Tree} (h : child ∈ tree.elements) :
    child ∈ tree.children :=
  (List.mem_filter.1 h).1

/-- The number of the line on which a tree starts. -/
def line (tree : Tree) : Nat :=
  match tree.tokens with
  | [] => 0
  | token :: _ => token.line

/-- The text of a tree. -/
def text (tree : Tree) : List Char :=
  verbatim tree.tokens

/-- The text of a tree on one line and without comments. -/
def flatText (tree : Tree) : List Char :=
  Text.squash (withoutComments tree.tokens)

mutual

/-- Some tokens of the tree follow no rule. -/
def isDamaged : Tree → Bool
  | leaf _ => false
  | node kind children => kind == .error || anyIsDamaged children

/-- Some tokens of the trees follow no rule. -/
def anyIsDamaged : List Tree → Bool
  | [] => false
  | tree :: rest => isDamaged tree || anyIsDamaged rest

end

mutual

/-- The nodes of a kind in a tree, each before those inside it. -/
def nodesOf (kind : NodeKind) : Tree → List Tree
  | leaf _ => []
  | node own children =>
      let inner := nodesOfAll kind children
      if own = kind then node own children :: inner else inner

/-- The nodes of a kind in a list of trees, each before those inside it. -/
def nodesOfAll (kind : NodeKind) : List Tree → List Tree
  | [] => []
  | tree :: rest => nodesOf kind tree ++ nodesOfAll kind rest

end

end Tree

end TableModels.Script
