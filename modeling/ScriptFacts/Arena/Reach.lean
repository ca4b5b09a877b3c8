import ScriptFacts.Arena.Basic

/-!
# Reachable nodes

What hangs below a node: the handles that its fields name, the handles that their fields name, and
so on. A handle may be shared and may lead nowhere.
-/
namespace ScriptFacts

/-- The handles that a field names, in order. -/
def Field.handles : Field Nat → List Nat
  | .digits _ | .text _ => []
  | .child handle => [handle]
  | .children handles => handles

/-- The handles that a node names, in field order. -/
def Node.children (node : Node) : List Nat :=
  node.fields.flatMap Field.handles

namespace Arena

/-- The node at `parent` names `child`. -/
def Child (arena : Arena) (parent child : Nat) : Prop :=
  ∃ node, arena.get? parent = some node ∧ child ∈ node.children

/-- One handle is reached from another by following children. -/
inductive Reaches (arena : Arena) : Nat → Nat → Prop
  | refl (handle : Nat) : Reaches arena handle handle
  | child {parent child handle : Nat} (hchild : arena.Child parent child)
    (hreach : Reaches arena child handle) : Reaches arena parent handle

/-- Every handle reached from `root` leads to a node. -/
def Closed (arena : Arena) (root : Nat) : Prop :=
  ∀ handle, arena.Reaches root handle → handle < arena.size

/-- Following children from `root` never comes back. -/
def Acyclic (arena : Arena) (root : Nat) : Prop :=
  ∀ parent child, arena.Reaches root parent → arena.Child parent child →
    ¬ arena.Reaches child parent

theorem Closed.exists_node {arena : Arena} {root handle : Nat} (h : arena.Closed root)
    (hhandle : arena.Reaches root handle) : ∃ node, arena.get? handle = some node :=
  have hlt : handle < arena.nodes.size := h handle hhandle
  ⟨_, Array.getElem?_eq_getElem hlt⟩

theorem Reaches.trans {arena : Arena} {a b c : Nat} (hab : arena.Reaches a b)
    (hbc : arena.Reaches b c) : arena.Reaches a c := by
  induction hab with
  | refl => exact hbc
  | child hchild _ ih => exact .child hchild (ih hbc)

end Arena

end ScriptFacts
