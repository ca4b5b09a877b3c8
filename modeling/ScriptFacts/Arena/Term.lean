import ScriptFacts.Arena.Basic

/-!
# Terms

The tree that hangs below a node, children in place of handles, and its written form:
`BinOpExp(Int(1),'+',Var('x'))`. Integers are written bare, other texts between single quotes and
sequences between brackets.

A program may share nodes, so its tree can be larger than its arena, but no path in the tree is
longer, unless handles go round in a circle. Unfolding therefore needs no more levels than there
are nodes; it fails when a handle leads nowhere or a circle uses the levels up.
-/
namespace ScriptFacts

/-- A written value: a text, a sequence, or a node of some kind with its fields. -/
inductive Term
  /-- A text written as it is. -/
  | bare (text : String)
  /-- A text written between quotes. -/
  | quoted (text : String)
  | list (items : List Term)
  | node (kind : Kind) (fields : List Term)
deriving Repr, Inhabited

namespace Term

mutual

/-- The written form of a term. -/
def render : Term → String
  | bare text => text
  | quoted text => "'" ++ text ++ "'"
  | list items => "[" ++ renderAll items ++ "]"
  | node kind fields => kind.name ++ "(" ++ renderAll fields ++ ")"

/-- The written forms of several terms, with commas between them. -/
def renderAll : List Term → String
  | [] => ""
  | first :: more => first.render ++ renderMore more

/-- The written forms of further terms, each after a comma. -/
def renderMore : List Term → String
  | [] => ""
  | term :: terms => "," ++ term.render ++ renderMore terms

end

/-- The term of a field, given the terms of children. -/
def ofField? (child? : Nat → Option Term) : Field Nat → Option Term
  | .digits text => some (.bare text)
  | .text text => some (.quoted text)
  | .child handle => child? handle
  | .children handles => (handles.mapM child?).map .list

end Term

namespace Arena

/-- The tree below a handle, if it is no deeper than `levels` and all its handles exist. -/
def termWithin? (arena : Arena) : (levels : Nat) → Nat → Option Term
  | 0, _ => none
  | levels + 1, handle => do
    let node ← arena.get? handle
    let fields ← node.fields.mapM (Term.ofField? (arena.termWithin? levels))
    some (.node node.kind fields)

/-- The tree below a handle. -/
def term? (arena : Arena) (handle : Nat) : Option Term :=
  arena.termWithin? arena.size handle

end Arena

namespace Ast

/-- The tree of a program. -/
def term? (ast : Ast) : Option Term :=
  ast.arena.term? ast.root

/-- The written form of the tree below a handle. -/
def render? (ast : Ast) (handle : Nat) : Option String :=
  (ast.arena.term? handle).map Term.render

end Ast

end ScriptFacts
