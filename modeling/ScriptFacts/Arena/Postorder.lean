import ScriptFacts.Arena.Reach

/-!
# Post-order

The handles at and below a handle in the order of a walk that visits children before their parent:
the children in field order, the items of a list in list order, then the node itself. A node that is
shared is visited once for each way to it. The walk fails when a handle leads nowhere or children
go round in a circle.
-/
namespace ScriptFacts.Arena

/-- The handles at and below a handle in post-order, if none is deeper than `levels`. -/
def postorderWithin? (arena : Arena) : (levels : Nat) → Nat → Option (List Nat)
  | 0, _ => none
  | levels + 1, handle => do
    let node ← arena.get? handle
    let below ← node.children.mapM (arena.postorderWithin? levels)
    some (below.flatten ++ [handle])

/-- The handles at and below a handle in post-order. -/
def postorder? (arena : Arena) (handle : Nat) : Option (List Nat) :=
  arena.postorderWithin? arena.size handle

/-- A place in which a handle can stand: a position among the children of a node. -/
structure Slot where
  parent : Nat
  position : Nat
deriving DecidableEq, Repr

/-- The handle that stands in a place, if there is one. -/
def atSlot? (arena : Arena) (slot : Slot) : Option Nat := do
  let node ← arena.get? slot.parent
  node.children[slot.position]?

end ScriptFacts.Arena
