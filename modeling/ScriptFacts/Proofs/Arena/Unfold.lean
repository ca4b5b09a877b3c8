import ScriptFacts.Arena.Layout
import ScriptFacts.Arena.Term
import ScriptFacts.Proofs.Arena.Depth

/-!
# Unfolding what was laid out

A statement is laid out as an arena, and the tree below the root of that arena is the statement
again, written as a term.

The trees are laid out one after the other into an arena that only grows, so what hangs below a
handle is said for every larger arena (`LaidOut`). A tree is never deeper than the number of nodes
that were added for it, which is why unfolding the whole arena finds all its levels.

* `Stmt.laidOut`: a statement laid out anywhere unfolds to its term.
* `Stmt.term?_toAst`: so does the program of a statement.
* `Stmt.closed_toAst`, `Stmt.acyclic_toAst`: its handles lead down to nodes, never back.
-/
namespace ScriptFacts

/-! ## The terms of trees -/

mutual

/-- The term of an expression: a node of its kind, the terms of its parts in field order. -/
def Expr.term : Expr → Term
  | .var name => .node .var [.quoted name]
  | .int value => .node .int [.bare value.repr]
  | .string text => .node .string [.quoted text]
  | .array elements => .node .array [.list (termAll elements)]
  | .index base position => .node .index [base.term, position.term]
  | .binary left op right => .node .binary [left.term, .quoted op.spelling, right.term]
  | .not operand => .node .unary [.quoted "not", operand.term]

/-- The terms of several expressions. -/
def Expr.termAll : List Expr → List Term
  | [] => []
  | expr :: exprs => expr.term :: termAll exprs

end

mutual

/-- The term of a statement. -/
def Stmt.term : Stmt → Term
  | .print value => .node .print [value.term]
  | .assign target value => .node .assign [target.term, value.term]
  | .block body => .node .block [.list (termAll body)]
  | .cond condition body => .node .cond [condition.term, body.term]
  | .loop condition body => .node .loop [condition.term, body.term]
  | .proc name parameters body =>
    .node .proc [.quoted name, .list (Expr.termAll parameters), body.term]
  | .call name arguments => .node .call [.quoted name, .list (Expr.termAll arguments)]

/-- The terms of several statements. -/
def Stmt.termAll : List Stmt → List Term
  | [] => []
  | stmt :: stmts => stmt.term :: termAll stmts

end

/-! ## Growing arenas -/

namespace Arena

/-- `larger` is `arena` with nodes added at the end. -/
def Extends (arena larger : Arena) : Prop :=
  ∃ added, larger.nodes = arena.nodes ++ added

namespace Extends

theorem refl (arena : Arena) : arena.Extends arena :=
  ⟨#[], by simp⟩

theorem trans {a b c : Arena} (hab : a.Extends b) (hbc : b.Extends c) : a.Extends c := by
  obtain ⟨first, hfirst⟩ := hab
  obtain ⟨second, hsecond⟩ := hbc
  exact ⟨first ++ second, by rw [hsecond, hfirst, Array.append_assoc]⟩

theorem push (arena : Arena) (node : Node) : arena.Extends (arena.push node).2 :=
  ⟨#[node], by simp [Arena.push]⟩

theorem size_le {arena larger : Arena} (h : arena.Extends larger) : arena.size ≤ larger.size := by
  obtain ⟨added, hadded⟩ := h
  unfold Arena.size
  rw [hadded, Array.size_append]
  omega

/-- A node that is there stays there. -/
theorem get? {arena larger : Arena} {handle : Nat} {node : Node} (h : arena.Extends larger)
    (hnode : arena.get? handle = some node) : larger.get? handle = some node := by
  obtain ⟨added, hadded⟩ := h
  have hlt : handle < arena.nodes.size := (Array.getElem?_eq_some_iff.mp hnode).1
  unfold Arena.get? at hnode ⊢
  rw [hadded, Array.getElem?_append_left hlt, hnode]

end Extends

end Arena

/-! ## Fields and their terms -/

theorem Term.mapM_child {child? : Nat → Option Term} {handle : Nat} {term : Term} :
    [Field.child handle].mapM (ofField? child?) = some [term] ↔ child? handle = some term := by
  cases h : child? handle <;> simp [ofField?, h]

theorem Term.mapM_children {child? : Nat → Option Term} {handles : List Nat} {terms : List Term} :
    [Field.children handles].mapM (ofField? child?) = some [.list terms]
      ↔ handles.mapM child? = some terms := by
  cases h : handles.mapM child? <;> simp [ofField?, h]

/-- Between two states of an arena, nodes were added so that the fields unfold to the terms. -/
structure LaidOut (before after : Arena) (fields : List (Field Nat)) (terms : List Term) :
    Prop where
  grows : before.Extends after
  descends : before.Descends → after.Descends
  handles_lt : ∀ handle ∈ fields.flatMap Field.handles, handle < after.size
  unfolds : ∀ (larger : Arena) (levels : Nat), after.Extends larger →
    after.size ≤ before.size + levels →
    fields.mapM (Term.ofField? (larger.termWithin? levels)) = some terms

namespace LaidOut

theorem text (arena : Arena) (text : String) : LaidOut arena arena [.text text] [.quoted text] :=
  ⟨.refl arena, id, by simp [Field.handles], fun _ _ _ _ => rfl⟩

theorem digits (arena : Arena) (text : String) :
    LaidOut arena arena [.digits text] [.bare text] :=
  ⟨.refl arena, id, by simp [Field.handles], fun _ _ _ _ => rfl⟩

/-- Fields laid out one after the other; the first ones have the levels of the others to spare. -/
theorem append {before between after : Arena} {firsts seconds : List (Field Nat)}
    {terms more : List Term} (hfirst : LaidOut before between firsts terms)
    (hsecond : LaidOut between after seconds more) :
    LaidOut before after (firsts ++ seconds) (terms ++ more) where
  grows := hfirst.grows.trans hsecond.grows
  descends := fun h => hsecond.descends (hfirst.descends h)
  handles_lt := by
    intro handle hmem
    rw [List.flatMap_append] at hmem
    rcases List.mem_append.mp hmem with hmem | hmem
    · exact Nat.lt_of_lt_of_le (hfirst.handles_lt handle hmem) hsecond.grows.size_le
    · exact hsecond.handles_lt handle hmem
  unfolds := by
    intro larger levels hlarger hlevels
    have hsize := hfirst.grows.size_le
    have hsize' := hsecond.grows.size_le
    have hterms := hfirst.unfolds larger levels (hsecond.grows.trans hlarger) (by omega)
    have hmore := hsecond.unfolds larger levels hlarger (by omega)
    simp [hterms, hmore]

/-- A node on top of its fields takes one level more, and is one node more. -/
theorem push {before after : Arena} {node : Node} {terms : List Term}
    (h : LaidOut before after node.fields terms) :
    LaidOut before (after.push node).2 [.child (after.push node).1] [.node node.kind terms] where
  grows := h.grows.trans (.push after node)
  descends := fun hbefore => (h.descends hbefore).push h.handles_lt
  handles_lt := by simp [Field.handles, Arena.push, Arena.size]
  unfolds := by
    intro larger levels hlarger hlevels
    have hsize := h.grows.size_le
    rw [Arena.size_push] at hlevels
    obtain ⟨levels, rfl⟩ : ∃ n, levels = n + 1 := ⟨levels - 1, by omega⟩
    have hnode : larger.get? (after.push node).1 = some node :=
      hlarger.get? (by rw [Arena.get?_push]; simp [Arena.push])
    have hafter := (Arena.Extends.push after node).trans hlarger
    have hfields := h.unfolds larger levels hafter (by omega)
    rw [Term.mapM_child]
    simp [Arena.termWithin?, hnode, hfields]

theorem children_nil (arena : Arena) : LaidOut arena arena [.children []] [.list []] :=
  ⟨.refl arena, id, by simp [Field.handles], fun _ _ _ _ => rfl⟩

theorem children_cons {before between after : Arena} {handle : Nat} {handles : List Nat}
    {term : Term} {terms : List Term} (hfirst : LaidOut before between [.child handle] [term])
    (hmore : LaidOut between after [.children handles] [.list terms]) :
    LaidOut before after [.children (handle :: handles)] [.list (term :: terms)] where
  grows := hfirst.grows.trans hmore.grows
  descends := fun h => hmore.descends (hfirst.descends h)
  handles_lt := by
    intro other hmem
    have hboth := (hfirst.append hmore).handles_lt other
    simp only [Field.handles, List.flatMap_cons, List.flatMap_nil, List.append_nil,
      List.cons_append, List.nil_append] at hboth hmem
    exact hboth hmem
  unfolds := by
    intro larger levels hlarger hlevels
    have hsize := hfirst.grows.size_le
    have hsize' := hmore.grows.size_le
    have hterm := hfirst.unfolds larger levels (hmore.grows.trans hlarger) (by omega)
    have hterms := hmore.unfolds larger levels hlarger (by omega)
    rw [Term.mapM_child] at hterm
    rw [Term.mapM_children] at hterms ⊢
    simp [hterm, hterms]

end LaidOut

/-! ## Laying out -/

mutual

theorem Expr.laidOut : (expr : Expr) → (arena : Arena) →
    LaidOut arena (expr.layOut arena).2 [.child (expr.layOut arena).1] [expr.term]
  | .var name, arena => .push (.text arena name)
  | .int value, arena => .push (.digits arena value.repr)
  | .string text, arena => .push (.text arena text)
  | .array elements, arena => .push (laidOutAll elements arena)
  | .index base position, arena => .push (.append (base.laidOut arena) (position.laidOut _))
  | .binary left op right, arena =>
    .push (.append (left.laidOut arena) (.append (.text _ op.spelling) (right.laidOut _)))
  | .not operand, arena => .push (.append (.text arena "not") (operand.laidOut arena))

theorem Expr.laidOutAll : (exprs : List Expr) → (arena : Arena) →
    LaidOut arena (Expr.layOutAll exprs arena).2 [.children (Expr.layOutAll exprs arena).1]
      [.list (Expr.termAll exprs)]
  | [], arena => .children_nil arena
  | expr :: exprs, arena => .children_cons (expr.laidOut arena) (laidOutAll exprs _)

end

mutual

/-- Wherever a statement is laid out, its nodes unfold to its term. -/
theorem Stmt.laidOut : (stmt : Stmt) → (arena : Arena) →
    LaidOut arena (stmt.layOut arena).2 [.child (stmt.layOut arena).1] [stmt.term]
  | .print value, arena => .push (value.laidOut arena)
  | .assign target value, arena => .push (.append (target.laidOut arena) (value.laidOut _))
  | .block body, arena => .push (laidOutAll body arena)
  | .cond condition body, arena => .push (.append (condition.laidOut arena) (body.laidOut _))
  | .loop condition body, arena => .push (.append (condition.laidOut arena) (body.laidOut _))
  | .proc name parameters body, arena =>
    .push (.append (.text arena name)
      (.append (Expr.laidOutAll parameters arena) (body.laidOut _)))
  | .call name arguments, arena =>
    .push (.append (.text arena name) (Expr.laidOutAll arguments arena))

theorem Stmt.laidOutAll : (stmts : List Stmt) → (arena : Arena) →
    LaidOut arena (Stmt.layOutAll stmts arena).2 [.children (Stmt.layOutAll stmts arena).1]
      [.list (Stmt.termAll stmts)]
  | [], arena => .children_nil arena
  | stmt :: stmts, arena => .children_cons (stmt.laidOut arena) (laidOutAll stmts _)

end

/-- The tree below the root of a program is the statement that was laid out. -/
theorem Stmt.term?_toAst (stmt : Stmt) : stmt.toAst.term? = some stmt.term := by
  have hunfold := (stmt.laidOut .empty).unfolds stmt.toAst.arena stmt.toAst.arena.size (.refl _)
    (Nat.le_add_left _ _)
  rwa [Term.mapM_child] at hunfold

/-- A program that was laid out has all its handles, and no circles. -/
theorem Stmt.closed_toAst (stmt : Stmt) : stmt.toAst.arena.Closed stmt.toAst.root :=
  ((stmt.laidOut .empty).descends .empty).closed stmt.toAst.root_lt

theorem Stmt.acyclic_toAst (stmt : Stmt) : stmt.toAst.arena.Acyclic stmt.toAst.root :=
  ((stmt.laidOut .empty).descends .empty).acyclic stmt.toAst.root

end ScriptFacts
