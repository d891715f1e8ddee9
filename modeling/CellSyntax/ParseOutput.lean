/-
**What a parser reports for a cell.**

A parser answers with a flat token list and, mostly, an abstract syntax tree. A node of that tree
has an anchor, the position the parser reports for it, or none if it stands for no text of its own.

* `ParseOutput.rebase_zero`: counting lines from zero already leaves all as it is;
* `AstNode.rebase_children`: counting lines anew goes through the whole tree.
-/

import CellSyntax.Token

namespace CellSyntax

/-- A node of a parser's abstract syntax tree. -/
structure AstNode where
  kind : String
  /-- Where the parser says the node starts. -/
  anchor : Option Position
  children : List AstNode
deriving Repr, Inhabited

/-- A position whose line was counted from `lineBase`, counted from zero. -/
def Position.rebase (lineBase : Nat) (position : Position) : Position :=
  ⟨position.line - lineBase, position.column⟩

/-- A range whose lines were counted from `lineBase`, counted from zero. -/
def Range.rebase (lineBase : Nat) (range : Range) : Range :=
  ⟨range.start.rebase lineBase, range.stop.rebase lineBase⟩

/-- A token whose lines were counted from `lineBase`, counted from zero. -/
def Token.rebase (lineBase : Nat) (token : Token) : Token :=
  { token with range := token.range.rebase lineBase }

mutual

/-- A tree whose lines were counted from `lineBase`, counted from zero. -/
def AstNode.rebase (lineBase : Nat) : AstNode → AstNode
  | ⟨kind, anchor, children⟩ =>
    ⟨kind, anchor.map (Position.rebase lineBase), AstNode.rebaseAll lineBase children⟩

/-- Trees whose lines were counted from `lineBase`, counted from zero. -/
def AstNode.rebaseAll (lineBase : Nat) : List AstNode → List AstNode
  | [] => []
  | node :: rest => node.rebase lineBase :: AstNode.rebaseAll lineBase rest

end

theorem AstNode.rebase_children (lineBase : Nat) (children : List AstNode) :
    AstNode.rebaseAll lineBase children = children.map (AstNode.rebase lineBase) := by
  induction children with
  | nil => rfl
  | cons node rest ih => rw [AstNode.rebaseAll, ih, List.map_cons]

/-- What a parser reports for one cell. -/
structure ParseOutput where
  /-- The text that the parser saw, if it says so. -/
  source : Option String
  tokens : List Token
  /-- The module node, if the text could be parsed. -/
  ast : Option AstNode
deriving Repr, Inhabited

/-- An answer whose lines were counted from `lineBase`, counted from zero. -/
def ParseOutput.rebase (lineBase : Nat) (output : ParseOutput) : ParseOutput :=
  { output with
    tokens := output.tokens.map (Token.rebase lineBase)
    ast := output.ast.map (AstNode.rebase lineBase) }

theorem Position.rebase_zero (position : Position) : position.rebase 0 = position := rfl

theorem Token.rebase_zero (token : Token) : token.rebase 0 = token := rfl

mutual

theorem AstNode.rebase_zero : ∀ node : AstNode, node.rebase 0 = node
  | ⟨kind, anchor, children⟩ => by
    rw [AstNode.rebase, AstNode.rebaseAll_zero children]
    cases anchor <;> rfl

theorem AstNode.rebaseAll_zero : ∀ nodes : List AstNode, AstNode.rebaseAll 0 nodes = nodes
  | [] => rfl
  | node :: rest => by
    rw [AstNode.rebaseAll, AstNode.rebase_zero node, AstNode.rebaseAll_zero rest]

end

theorem ParseOutput.rebase_zero (output : ParseOutput) : output.rebase 0 = output := by
  rcases output with ⟨source, tokens, ast⟩
  have sameTokens : tokens.map (Token.rebase 0) = tokens := List.map_id tokens
  have sameAst : ast.map (AstNode.rebase 0) = ast := by
    cases ast with
    | none => rfl
    | some node => exact congrArg some (AstNode.rebase_zero node)
  rw [ParseOutput.rebase, sameTokens, sameAst]

end CellSyntax
