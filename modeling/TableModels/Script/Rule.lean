import TableModels.Script.Tree

/-! # Grammar rules

A rule says which tokens may stand at a place and which trees they make. Alternatives are ordered:
the first that fits is taken. A grammar gives each of its symbols a rule.

## Implementation notes

A rule may refer to itself through symbols, so the reader is given a bound on how deep it may go;
when the bound is passed the rule does not fit. Where every rule takes a token before it comes back
to itself, the number of tokens times the size of the grammar is bound enough. -/

namespace TableModels.Script

/-- A grammar rule over some symbols. -/
inductive Rule (Symbol : Type) where
  /-- Nothing. -/
  | done
  /-- One token, as a leaf. -/
  | token (accepts : Token → Bool)
  /-- As many tokens as are counted, as leaves. -/
  | run (count : List Token → Option Nat)
  /-- Nothing, provided that the tokens from here on satisfy a condition. -/
  | guard (holds : List Token → Bool)
  /-- Nothing, provided that the rule fits here. -/
  | ahead (rule : Rule Symbol)
  | seq (first second : Rule Symbol)
  | either (first second : Rule Symbol)
  /-- The rule as often as it fits. -/
  | many (rule : Rule Symbol)
  /-- A node over what the rule reads. -/
  | node (kind : NodeKind) (rule : Rule Symbol)
  /-- A base, and suffixes as often as they fit: each suffix reads one node, whose first children
  become what has been read so far. -/
  | folded (base suffix : Rule Symbol)
  | symbol (name : Symbol)

namespace Rule

variable {Symbol : Type}

/-- All the rules one behind the other. -/
def sequence : List (Rule Symbol) → Rule Symbol
  | [] => done
  | [rule] => rule
  | rule :: rest => seq rule (sequence rest)

/-- The first of the rules that fits. -/
def choice : List (Rule Symbol) → Rule Symbol
  | [] => token fun _ => false
  | [rule] => rule
  | rule :: rest => either rule (choice rest)

/-- The rule, or nothing. -/
def optional (rule : Rule Symbol) : Rule Symbol :=
  either rule done

/-- A punctuation mark. -/
def mark (text : String) : Rule Symbol :=
  token (·.isMark text)

/-- A word. -/
def word (text : String) : Rule Symbol :=
  token (·.isWord text)

/-- A word that can name something. -/
def name : Rule Symbol :=
  token (·.isName)

/-- Any word. -/
def anyWord : Rule Symbol :=
  token (·.kind == .word)

/-- Nothing, provided that no line ends here. -/
def sameLine : Rule Symbol :=
  guard fun tokens => tokens.head?.any (!·.startsLine)

/-- Elements with commas between them, where any element may be missing. -/
def commas (element : Rule Symbol) : Rule Symbol :=
  seq (optional element) (many (seq (mark ",") (optional element)))

/-- Elements with a mark between them. -/
def separated (separator : String) (element : Rule Symbol) : Rule Symbol :=
  seq element (many (seq (mark separator) element))

mutual

/-- The trees that a rule reads at the head of the tokens, and the tokens behind them. -/
def read (grammar : Symbol → Rule Symbol) :
    Nat → Rule Symbol → List Token → Option (List Tree × List Token)
  | 0, _, _ => none
  | depth + 1, rule, tokens =>
      match rule with
      | done => some ([], tokens)
      | token accepts =>
          match tokens with
          | [] => none
          | next :: rest => if accepts next then some ([.leaf next], rest) else none
      | run count =>
          (count tokens).map fun size => ((tokens.take size).map .leaf, tokens.drop size)
      | guard holds => if holds tokens then some ([], tokens) else none
      | ahead inner => (read grammar depth inner tokens).map fun _ => ([], tokens)
      | seq first second =>
          match read grammar depth first tokens with
          | none => none
          | some (trees, rest) =>
              (read grammar depth second rest).map fun (later, after) => (trees ++ later, after)
      | either first second =>
          match read grammar depth first tokens with
          | some result => some result
          | none => read grammar depth second tokens
      | many inner =>
          match read grammar depth inner tokens with
          | none => some ([], tokens)
          | some (trees, rest) =>
              if Tree.anyHoldsToken trees then
                (read grammar depth (many inner) rest).map fun (later, after) =>
                  (trees ++ later, after)
              else
                some ([], tokens)
      | node kind inner =>
          (read grammar depth inner tokens).map fun (trees, rest) => ([.node kind trees], rest)
      | folded base suffix =>
          match read grammar depth base tokens with
          | none => none
          | some (trees, rest) => extend grammar depth suffix trees rest
      | symbol called => read grammar depth (grammar called) tokens

/-- The trees that have been read, extended by suffixes as often as they fit. -/
def extend (grammar : Symbol → Rule Symbol) :
    Nat → Rule Symbol → List Tree → List Token → Option (List Tree × List Token)
  | 0, _, _, _ => none
  | depth + 1, suffix, trees, tokens =>
      match read grammar depth suffix tokens with
      | some ([.node kind children], rest) =>
          if Tree.anyHoldsToken children then
            extend grammar depth suffix [.node kind (trees ++ children)] rest
          else
            some (trees, tokens)
      | _ => some (trees, tokens)

end

end Rule

end TableModels.Script
