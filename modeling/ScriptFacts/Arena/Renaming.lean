import ScriptFacts.Arena.Reach

/-!
# Renaming handles

A handle says at which position of an arena a node stands, and nothing else. The same program can
stand in another arena, at other positions and among other nodes: its nodes are the same there, with
other handles for their children. Whatever cannot be reached from the root does not matter.

* `Ast.Renames.exists_of_reaches`: nothing else hangs below the other root.
* `Ast.Renames.closed`, `Ast.Renames.acyclic`: the other program has its nodes, and no circles.
-/
namespace ScriptFacts

/-- A field with other children. -/
def Field.map {α β : Type} (f : α → β) : Field α → Field β
  | .digits value => .digits value
  | .text value => .text value
  | .child item => .child (f item)
  | .children items => .children (items.map f)

theorem Field.handles_map (f : Nat → Nat) (field : Field Nat) :
    (field.map f).handles = field.handles.map f := by
  cases field <;> rfl

/-- A field holds the same texts, and its children are found under new handles. -/
structure Node.Renames (rename : Nat → Nat) (node other : Node) : Prop where
  kind : other.kind = node.kind
  fields : other.fields = node.fields.map (Field.map rename)

theorem Node.Renames.children {rename : Nat → Nat} {node other : Node}
    (h : node.Renames rename other) : other.children = node.children.map rename := by
  rw [Node.children, Node.children, h.fields, List.flatMap_map, List.map_flatMap]
  simp only [Field.handles_map]

/-- What is reached from the root of the first program stands in the second program under new
handles, no two of them under the same, and the root is the root. -/
structure Ast.Renames (rename : Nat → Nat) (first second : Ast) : Prop where
  root : rename first.root = second.root
  injective : ∀ handle other, first.arena.Reaches first.root handle →
    first.arena.Reaches first.root other → rename handle = rename other → handle = other
  node : ∀ handle node, first.arena.Reaches first.root handle →
    first.arena.get? handle = some node →
      ∃ other, second.arena.get? (rename handle) = some other ∧ node.Renames rename other

namespace Ast.Renames

variable {rename : Nat → Nat} {first second : Ast}

/-- The children of a node are found under new handles, and nothing else is. -/
theorem exists_child (h : first.Renames rename second) (hclosed : first.arena.Closed first.root)
    {handle below : Nat} (hhandle : first.arena.Reaches first.root handle)
    (hbelow : second.arena.Child (rename handle) below) :
    ∃ child, first.arena.Child handle child ∧ rename child = below := by
  obtain ⟨node, hnode⟩ := hclosed.exists_node hhandle
  obtain ⟨other, hother, hmem⟩ := hbelow
  obtain ⟨found, hfound, hrenames⟩ := h.node handle _ hhandle hnode
  obtain rfl := Option.some.inj (hfound.symm.trans hother)
  rw [hrenames.children] at hmem
  obtain ⟨child, hchild, rfl⟩ := List.mem_map.mp hmem
  exact ⟨child, ⟨_, hnode, hchild⟩, rfl⟩

/-- What is reached from a new handle is reached from the old one. -/
theorem exists_of_reaches (h : first.Renames rename second)
    (hclosed : first.arena.Closed first.root) {above other : Nat}
    (hother : second.arena.Reaches above other) {handle : Nat} (habove : rename handle = above)
    (hhandle : first.arena.Reaches first.root handle) :
    ∃ below, first.arena.Reaches handle below ∧ rename below = other := by
  induction hother generalizing handle with
  | refl => exact ⟨handle, .refl handle, habove⟩
  | child hchild _ ih =>
    subst habove
    obtain ⟨child, hchild, hrename⟩ := h.exists_child hclosed hhandle hchild
    obtain ⟨below, hbelow, hother⟩ := ih hrename (hhandle.trans (.child hchild (.refl child)))
    exact ⟨below, .child hchild hbelow, hother⟩

theorem closed (h : first.Renames rename second) (hclosed : first.arena.Closed first.root) :
    second.arena.Closed second.root := by
  intro other hother
  obtain ⟨handle, hhandle, rfl⟩ := h.exists_of_reaches hclosed hother h.root (.refl _)
  obtain ⟨node, hnode⟩ := hclosed.exists_node hhandle
  obtain ⟨node, hnode, -⟩ := h.node handle _ hhandle hnode
  exact (Array.getElem?_eq_some_iff.mp hnode).1

theorem acyclic (h : first.Renames rename second) (hclosed : first.arena.Closed first.root)
    (hacyclic : first.arena.Acyclic first.root) : second.arena.Acyclic second.root := by
  intro above below habove hbelow hback
  obtain ⟨parent, hparent, rfl⟩ := h.exists_of_reaches hclosed habove h.root (.refl _)
  obtain ⟨child, hchild, rfl⟩ := h.exists_child hclosed hparent hbelow
  have hreaches := hparent.trans (.child hchild (.refl child))
  obtain ⟨again, hagain, hsame⟩ := h.exists_of_reaches hclosed hback rfl hreaches
  obtain rfl := h.injective again parent (hreaches.trans hagain) hparent hsame
  exact hacyclic again child hparent hchild hagain

end Ast.Renames

end ScriptFacts
