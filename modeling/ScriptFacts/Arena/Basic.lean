import ScriptFacts.Arena.Node

/-!
# Arenas

An arena holds nodes in the order in which they were added; a node's position is its handle. A
stored program is an arena with one of its nodes marked as the root.
-/
namespace ScriptFacts

/-- Nodes in the order in which they were added. -/
structure Arena where
  nodes : Array Node
deriving DecidableEq, Repr

namespace Arena

/-- The arena without nodes. -/
def empty : Arena := ⟨#[]⟩

/-- The number of nodes. -/
def size (arena : Arena) : Nat :=
  arena.nodes.size

/-- The node at a handle, if there is one. -/
def get? (arena : Arena) (handle : Nat) : Option Node :=
  arena.nodes[handle]?

/-- Adds a node, and tells its handle. -/
def push (arena : Arena) (node : Node) : Nat × Arena :=
  (arena.size, ⟨arena.nodes.push node⟩)

@[simp] theorem size_push (arena : Arena) (node : Node) :
    (arena.push node).2.size = arena.size + 1 := by
  simp [push, size]

theorem get?_push (arena : Arena) (node : Node) (handle : Nat) :
    (arena.push node).2.get? handle
      = if handle = arena.size then some node else arena.get? handle := by
  exact Array.getElem?_push

theorem get?_eq_none_iff {arena : Arena} {handle : Nat} :
    arena.get? handle = none ↔ arena.size ≤ handle := by
  simp [get?, size]

end Arena

/-- A stored program: nodes, one of which is the root. -/
structure Ast where
  arena : Arena
  root : Nat
  root_lt : root < arena.size
deriving DecidableEq

/-- The program whose root is the node at `root`, if there is such a node. -/
def Arena.withRoot? (arena : Arena) (root : Nat) : Option Ast :=
  if h : root < arena.size then some ⟨arena, root, h⟩ else none

namespace Ast

/-- The root itself. -/
def rootNode (ast : Ast) : Node :=
  have : ast.root < ast.arena.nodes.size := ast.root_lt
  ast.arena.nodes[ast.root]

theorem get?_root (ast : Ast) : ast.arena.get? ast.root = some ast.rootNode :=
  Array.getElem?_eq_getElem ast.root_lt

end Ast

end ScriptFacts
