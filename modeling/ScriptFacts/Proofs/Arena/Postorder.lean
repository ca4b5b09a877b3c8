import Mathlib.Data.List.Nodup
import Mathlib.Data.List.Range
import ScriptFacts.Arena.Postorder
import ScriptFacts.Proofs.Arena.Depth
import ScriptFacts.Proofs.Program.OnePass

/-!
# Programs are trees in post-order

The walk of a program in post-order meets its handles in the order in which they were given out. A
walk tells more than that: it ends with the handle where it began, it stays within what is reached
from there, and the handles that its nodes name are all that it visits, except for that last one. So
a walk that visits every handle once shows a tree without orphans and without sharing.

* `Arena.walk_induction`: what holds of a node if it holds of its children holds of every walk.
* `Arena.postorder_perm`: the children of what is visited, and the beginning, are what is visited.
* `Stmt.postorder?_toAst`: a statement is laid out in post-order.
* `Ast.postorder_ofText`: so is the program of a text, which is therefore a tree.
-/
namespace ScriptFacts

open scoped List

namespace Arena

variable {arena : Arena}

/-! ## Walks -/

/-- A walk below several handles is made of the walks below each. -/
theorem mapM_walk {walk? : Nat → Option (List Nat)} {handles : List Nat}
    {below : List (List Nat)} (h : handles.mapM walk? = some below) :
    ∃ walk : Nat → List Nat, below = handles.map walk
      ∧ ∀ handle ∈ handles, walk? handle = some (walk handle) := by
  refine ⟨fun handle => (walk? handle).getD [], ?_⟩
  induction handles generalizing below with
  | nil => simpa using h.symm
  | cons handle handles ih =>
    obtain ⟨first, more, hfirst, hmore, rfl⟩ := mapM_cons_eq_some_iff.mp h
    obtain ⟨rfl, hwalks⟩ := ih hmore
    refine ⟨by rw [List.map_cons, hfirst]; rfl, List.forall_mem_cons.mpr ⟨?_, hwalks⟩⟩
    show walk? handle = some ((walk? handle).getD [])
    rw [hfirst]
    rfl

/-- The walk below a node is made of the walks below its children, on one level less. -/
theorem exists_below {levels handle : Nat} {visited : List Nat}
    (h : arena.postorderWithin? levels handle = some visited) :
    ∃ less node walk, levels = less + 1 ∧ arena.get? handle = some node
      ∧ visited = node.children.flatMap walk ++ [handle]
      ∧ ∀ child ∈ node.children, arena.postorderWithin? less child = some (walk child) := by
  cases levels with
  | zero => simp [postorderWithin?] at h
  | succ less =>
    rw [postorderWithin?] at h
    obtain ⟨node, hnode, h⟩ := Option.bind_eq_some_iff.mp h
    obtain ⟨below, hbelow, h⟩ := Option.bind_eq_some_iff.mp h
    obtain ⟨walk, rfl, hwalk⟩ := mapM_walk hbelow
    refine ⟨less, node, walk, rfl, hnode, ?_, hwalk⟩
    rw [List.flatMap_def]
    exact (Option.some.inj h).symm

/-- Induction on a walk: from the walks below the children of a node to the walk below the node. -/
@[elab_as_elim]
theorem walk_induction {motive : Nat → List Nat → Prop}
    (step : ∀ handle node (walk : Nat → List Nat), arena.get? handle = some node →
      (∀ child ∈ node.children, motive child (walk child)) →
      motive handle (node.children.flatMap walk ++ [handle]))
    {levels handle : Nat} {visited : List Nat}
    (h : arena.postorderWithin? levels handle = some visited) : motive handle visited := by
  induction levels generalizing handle visited with
  | zero => simp [postorderWithin?] at h
  | succ levels ih =>
    obtain ⟨less, node, walk, hless, hnode, rfl, hwalk⟩ := exists_below h
    obtain rfl : less = levels := (Nat.succ.inj hless).symm
    exact step handle node walk hnode fun child hchild => ih (hwalk child hchild)

section Walk

variable {levels root : Nat} {visited : List Nat}
  (h : arena.postorderWithin? levels root = some visited)

include h

/-- The handle where a walk begins is visited last. -/
theorem getLast?_postorder : visited.getLast? = some root := by
  refine walk_induction (fun handle node walk _ _ => ?_) h
  rw [List.getLast?_append, List.getLast?_singleton]
  rfl

/-- What is visited is reached. -/
theorem reaches_of_mem_postorder : ∀ handle ∈ visited, arena.Reaches root handle := by
  refine walk_induction (fun handle node walk hnode ih => ?_) h
  intro other hother
  rcases List.mem_append.mp hother with hbelow | hself
  · obtain ⟨child, hchild, hmem⟩ := List.mem_flatMap.mp hbelow
    exact .child ⟨node, hnode, hchild⟩ (ih child hchild other hmem)
  · obtain rfl := List.mem_singleton.mp hself
    exact .refl other

end Walk

/-! ## Walks with levels to spare -/

/-- More levels than a walk needs change nothing. -/
theorem postorderWithin?_mono {levels more handle : Nat} {visited : List Nat}
    (hle : levels ≤ more) (h : arena.postorderWithin? levels handle = some visited) :
    arena.postorderWithin? more handle = some visited := by
  induction levels generalizing more handle visited with
  | zero => simp [postorderWithin?] at h
  | succ levels ih =>
    obtain ⟨more, rfl⟩ : ∃ n, more = n + 1 := ⟨more - 1, by omega⟩
    rw [postorderWithin?] at h ⊢
    obtain ⟨node, hnode, h⟩ := Option.bind_eq_some_iff.mp h
    obtain ⟨below, hbelow, h⟩ := Option.bind_eq_some_iff.mp h
    rw [hnode, Option.bind_eq_bind, Option.bind_some]
    rw [mapM_mono (fun _ _ => ih (Nat.le_of_succ_le_succ hle)) hbelow]
    exact h

/-- The walks below all handles that are reached from a root: each is made of the walks below the
children, and then the handle itself. -/
structure Walks (arena : Arena) (root : Nat) (walk : Nat → List Nat) : Prop where
  node : ∀ handle, arena.Reaches root handle → ∃ node, arena.get? handle = some node
    ∧ walk handle = node.children.flatMap walk ++ [handle]

theorem exists_walks {levels root : Nat} {visited : List Nat}
    (h : arena.postorderWithin? levels root = some visited) :
    ∃ walk, arena.Walks root walk ∧ walk root = visited := by
  have hwalks : ∀ handle, arena.Reaches root handle →
      ∃ visited, arena.postorderWithin? levels handle = some visited := by
    intro handle hreach
    induction hreach generalizing visited with
    | refl => exact ⟨visited, h⟩
    | child hchild _ ih =>
      obtain ⟨less, node, walk, rfl, hnode, -, hbelow⟩ := exists_below h
      obtain ⟨_, hnode', hmem⟩ := hchild
      obtain rfl := Option.some.inj (hnode.symm.trans hnode')
      exact ih (postorderWithin?_mono (Nat.le_succ less) (hbelow _ hmem))
  refine ⟨fun handle => (arena.postorderWithin? levels handle).getD [], ⟨fun handle hreach => ?_⟩,
    by simp [h]⟩
  obtain ⟨visited, hvisited⟩ := hwalks handle hreach
  obtain ⟨less, node, walk, rfl, hnode, rfl, hbelow⟩ := exists_below hvisited
  refine ⟨node, hnode, ?_⟩
  rw [hvisited, Option.getD_some]
  refine congrArg (· ++ [handle]) (List.flatMap_congr fun child hchild => ?_)
  rw [postorderWithin?_mono (Nat.le_succ less) (hbelow child hchild), Option.getD_some]

/-! ## What the nodes of a walk name -/

/-- The handles that the node at a handle names. -/
def childrenAt (arena : Arena) (handle : Nat) : List Nat :=
  ((arena.get? handle).map Node.children).getD []

theorem childrenAt_of_get? {handle : Nat} {node : Node} (h : arena.get? handle = some node) :
    arena.childrenAt handle = node.children := by
  simp [childrenAt, h]

theorem child_iff {parent child : Nat} :
    arena.Child parent child ↔ child ∈ arena.childrenAt parent := by
  unfold Child childrenAt
  cases arena.get? parent <;> simp

theorem atSlot?_eq_some_iff {slot : Slot} {handle : Nat} :
    arena.atSlot? slot = some handle
      ↔ (arena.childrenAt slot.parent)[slot.position]? = some handle := by
  unfold atSlot? childrenAt
  cases arena.get? slot.parent <;> simp

/-- Walks below several handles put together, when each of them accounts for its own. -/
theorem perm_flatMap {walk children : Nat → List Nat} {handles : List Nat}
    (h : ∀ handle ∈ handles, ((walk handle).flatMap children ++ [handle]).Perm (walk handle)) :
    ((handles.flatMap walk).flatMap children ++ handles).Perm (handles.flatMap walk) := by
  induction handles with
  | nil => exact .nil
  | cons handle handles ih =>
    obtain ⟨hhandle, hhandles⟩ := List.forall_mem_cons.mp h
    simp only [List.flatMap_cons, List.flatMap_append, List.append_assoc]
    calc
      _ ~ (walk handle).flatMap children
          ++ handle :: ((handles.flatMap walk).flatMap children ++ handles) :=
        List.perm_middle.append_left _
      _ = ((walk handle).flatMap children ++ [handle])
          ++ ((handles.flatMap walk).flatMap children ++ handles) := by simp
      _ ~ walk handle ++ handles.flatMap walk := hhandle.append (ih hhandles)

section Walk

variable {levels root : Nat} {visited : List Nat}
  (h : arena.postorderWithin? levels root = some visited)

include h

/-- A walk visits the handles that its nodes name, each as often as it is named, and the handle
where it begins. -/
theorem postorder_perm : visited.flatMap arena.childrenAt ++ [root] ~ visited := by
  refine walk_induction (fun handle node walk hnode ih => ?_) h
  have hbelow := perm_flatMap ih
  rw [List.flatMap_append, List.flatMap_singleton, childrenAt_of_get? hnode]
  exact hbelow.append_right [handle]

/-- In a walk along increasing handles, children come before their parents. -/
theorem child_lt_of_pairwise (hincreasing : visited.Pairwise (· < ·)) :
    ∀ parent ∈ visited, ∀ child ∈ arena.childrenAt parent, child < parent := by
  have hboth : root ∈ visited ∧ (visited.Pairwise (· < ·) →
      ∀ parent ∈ visited, ∀ child ∈ arena.childrenAt parent, child < parent) := by
    refine walk_induction (fun handle node walk hnode ih => ⟨by simp, ?_⟩) h
    intro hincreasing parent hparent child hchild
    obtain ⟨hbelow, -, hlast⟩ := List.pairwise_append.mp hincreasing
    rcases List.mem_append.mp hparent with hparent | hparent
    · obtain ⟨top, htop, hmem⟩ := List.mem_flatMap.mp hparent
      exact (ih top htop).2 ((List.pairwise_flatMap.mp hbelow).1 top htop) parent hmem child hchild
    · obtain rfl := List.mem_singleton.mp hparent
      rw [childrenAt_of_get? hnode] at hchild
      have hvisited : child ∈ node.children.flatMap walk :=
        List.mem_flatMap.mpr ⟨child, hchild, (ih child hchild).1⟩
      exact hlast child hvisited parent (List.mem_singleton_self parent)
  exact hboth.2 hincreasing

end Walk

/-! ## Walks of whole arenas -/

theorem parent_lt_of_atSlot? {slot : Slot} {handle : Nat}
    (hslot : arena.atSlot? slot = some handle) : slot.parent < arena.size := by
  obtain ⟨node, hnode, -⟩ := Option.bind_eq_some_iff.mp hslot
  exact (Array.getElem?_eq_some_iff.mp hnode).1

/-- Where no handle is named twice, it stands in one place at most. -/
theorem slot_unique
    (hnodup : ((List.range arena.size).flatMap arena.childrenAt).Nodup) {slot other : Slot}
    {handle : Nat} (hslot : arena.atSlot? slot = some handle)
    (hother : arena.atSlot? other = some handle) : slot = other := by
  obtain ⟨hnode, hnodes⟩ := List.nodup_flatMap.mp hnodup
  have hmem := List.mem_range.mpr (parent_lt_of_atSlot? hslot)
  have hmem' := List.mem_range.mpr (parent_lt_of_atSlot? hother)
  rw [atSlot?_eq_some_iff] at hslot hother
  have hparent : slot.parent = other.parent := by
    by_contra hne
    have hsymm : Std.Symm (Function.onFun List.Disjoint arena.childrenAt) :=
      ⟨fun _ _ hdisjoint => hdisjoint.symm⟩
    have hdisjoint := hnodes.forall hmem hmem' hne
    exact hdisjoint (List.mem_of_getElem? hslot) (List.mem_of_getElem? hother)
  rw [← hparent] at hother
  have hposition : slot.position = other.position :=
    (List.getElem?_inj (List.getElem?_eq_some_iff.mp hslot).1 (hnode _ hmem)).mp
      (hslot.trans hother.symm)
  cases slot
  cases other
  simp_all

section Whole

variable {root : Nat} (h : arena.postorder? root = some (List.range arena.size))

include h

theorem root_of_postorder : root + 1 = arena.size := by
  have hlast := getLast?_postorder h
  rw [List.getLast?_range] at hlast
  by_cases hempty : arena.size = 0
  · simp [hempty] at hlast
  · rw [if_neg hempty] at hlast
    have := Option.some.inj hlast
    omega

theorem child_lt_of_postorder {parent child : Nat} (hchild : arena.Child parent child) :
    child < parent := by
  have hmem : parent ∈ List.range arena.size := by
    obtain ⟨node, hnode, -⟩ := hchild
    rw [List.mem_range]
    exact (Array.getElem?_eq_some_iff.mp hnode).1
  exact child_lt_of_pairwise h List.pairwise_lt_range parent hmem child (child_iff.mp hchild)

/-- A handle stands in exactly one place, unless it is the root. -/
theorem existsUnique_slot_iff {handle : Nat} (hlt : handle < arena.size) :
    (∃! slot, arena.atSlot? slot = some handle) ↔ handle ≠ root := by
  have hperm := postorder_perm h
  obtain ⟨hnodup, -, hroot⟩ := List.nodup_append.mp (hperm.nodup_iff.mpr List.nodup_range)
  constructor
  · intro hunique hself
    obtain ⟨slot, hslot, -⟩ := hunique
    have hparent := List.mem_range.mpr (parent_lt_of_atSlot? hslot)
    have hchild := List.mem_of_getElem? (atSlot?_eq_some_iff.mp hslot)
    have hnamed := List.mem_flatMap.mpr ⟨slot.parent, hparent, hchild⟩
    exact hroot handle hnamed root (List.mem_singleton_self root) hself
  · intro hne
    have hvisited := hperm.mem_iff.mpr (List.mem_range.mpr hlt)
    rcases List.mem_append.mp hvisited with hnamed | hself
    · obtain ⟨parent, -, hchild⟩ := List.mem_flatMap.mp hnamed
      obtain ⟨position, hposition⟩ := List.mem_iff_getElem?.mp hchild
      have hslot : arena.atSlot? ⟨parent, position⟩ = some handle :=
        atSlot?_eq_some_iff.mpr hposition
      exact ⟨_, hslot, fun other hother => slot_unique hnodup hother hslot⟩
    · exact absurd (List.mem_singleton.mp hself) hne

theorem reaches_of_postorder {handle : Nat} (hlt : handle < arena.size) :
    arena.Reaches root handle :=
  reaches_of_mem_postorder h handle (List.mem_range.mpr hlt)

end Whole

end Arena

/-! ## Laying out -/

/-- Between two states of an arena, the nodes were added in post-order: the walk below the handles
passes over all of them, in the order in which they were added. -/
structure InPostorder (before after : Arena) (handles : List Nat) : Prop where
  grows : before.Extends after
  visits : ∀ (larger : Arena) (levels : Nat), after.Extends larger →
    after.size ≤ before.size + levels →
    ∃ below, handles.mapM (larger.postorderWithin? levels) = some below
      ∧ below.flatten = List.range' before.size (after.size - before.size)

namespace InPostorder

theorem nil (arena : Arena) : InPostorder arena arena [] :=
  ⟨.refl arena, fun _ _ _ _ => ⟨[], rfl, by simp⟩⟩

/-- Walks one after the other; the first ones have the levels of the others to spare. -/
theorem append {before between after : Arena} {firsts seconds : List Nat}
    (hfirst : InPostorder before between firsts) (hsecond : InPostorder between after seconds) :
    InPostorder before after (firsts ++ seconds) where
  grows := hfirst.grows.trans hsecond.grows
  visits := by
    intro larger levels hlarger hlevels
    have hsize := hfirst.grows.size_le
    have hsize' := hsecond.grows.size_le
    obtain ⟨below, hbelow, hvisits⟩ :=
      hfirst.visits larger levels (hsecond.grows.trans hlarger) (by omega)
    obtain ⟨below', hbelow', hvisits'⟩ := hsecond.visits larger levels hlarger (by omega)
    refine ⟨below ++ below', by simp [List.mapM_append, hbelow, hbelow'], ?_⟩
    have hsplit : between.size = before.size + (between.size - before.size) := by omega
    have hcount : (between.size - before.size) + (after.size - between.size)
        = after.size - before.size := by omega
    rw [List.flatten_append, hvisits, hvisits', ← hcount, ← List.range'_append_1, ← hsplit]

/-- A node on top of its children is visited after all of them. -/
theorem push {before after : Arena} {node : Node}
    (h : InPostorder before after node.children) :
    InPostorder before (after.push node).2 [(after.push node).1] where
  grows := h.grows.trans (.push after node)
  visits := by
    intro larger levels hlarger hlevels
    have hsize := h.grows.size_le
    rw [Arena.size_push] at hlevels
    obtain ⟨levels, rfl⟩ : ∃ n, levels = n + 1 := ⟨levels - 1, by omega⟩
    have hnode : larger.get? (after.push node).1 = some node :=
      hlarger.get? (by rw [Arena.get?_push]; simp [Arena.push])
    obtain ⟨below, hbelow, hvisits⟩ :=
      h.visits larger levels ((Arena.Extends.push after node).trans hlarger) (by omega)
    refine ⟨[below.flatten ++ [(after.push node).1]],
      by simp [Arena.postorderWithin?, hnode, hbelow], ?_⟩
    have hcount : (after.push node).2.size - before.size = (after.size - before.size) + 1 := by
      rw [Arena.size_push]
      omega
    have hself : (after.push node).1 = before.size + (after.size - before.size) := by
      show after.size = _
      omega
    rw [List.flatten_singleton, hvisits, hself, hcount, List.range'_1_concat]

end InPostorder

mutual

theorem Expr.inPostorder : (expr : Expr) → (arena : Arena) →
    InPostorder arena (expr.layOut arena).2 [(expr.layOut arena).1]
  | .var _, arena | .int _, arena | .string _, arena => .push (.nil arena)
  | .array elements, arena => .push (.append (inPostorderAll elements arena) (.nil _))
  | .index base position, arena => .push (.append (base.inPostorder arena) (position.inPostorder _))
  | .binary left _ right, arena =>
    .push (.append (left.inPostorder arena) (.append (.nil _) (right.inPostorder _)))
  | .not operand, arena => .push (.append (.nil arena) (operand.inPostorder arena))

theorem Expr.inPostorderAll : (exprs : List Expr) → (arena : Arena) →
    InPostorder arena (Expr.layOutAll exprs arena).2 (Expr.layOutAll exprs arena).1
  | [], arena => .nil arena
  | expr :: exprs, arena => .append (expr.inPostorder arena) (inPostorderAll exprs _)

end

mutual

theorem Stmt.inPostorder : (stmt : Stmt) → (arena : Arena) →
    InPostorder arena (stmt.layOut arena).2 [(stmt.layOut arena).1]
  | .print value, arena => .push (value.inPostorder arena)
  | .assign target value, arena =>
    .push (.append (target.inPostorder arena) (value.inPostorder _))
  | .block body, arena => .push (.append (inPostorderAll body arena) (.nil _))
  | .cond condition body, arena =>
    .push (.append (condition.inPostorder arena) (body.inPostorder _))
  | .loop condition body, arena =>
    .push (.append (condition.inPostorder arena) (body.inPostorder _))
  | .proc _ parameters body, arena =>
    .push (.append (.nil arena)
      (.append (Expr.inPostorderAll parameters arena) (body.inPostorder _)))
  | .call _ arguments, arena =>
    .push (.append (.nil arena) (.append (Expr.inPostorderAll arguments arena) (.nil _)))

theorem Stmt.inPostorderAll : (stmts : List Stmt) → (arena : Arena) →
    InPostorder arena (Stmt.layOutAll stmts arena).2 (Stmt.layOutAll stmts arena).1
  | [], arena => .nil arena
  | stmt :: stmts, arena => .append (stmt.inPostorder arena) (inPostorderAll stmts _)

end

/-- The handles of a statement that was laid out are its walk. -/
theorem Stmt.postorder?_toAst (stmt : Stmt) :
    stmt.toAst.arena.postorder? stmt.toAst.root = some (List.range stmt.toAst.arena.size) := by
  obtain ⟨below, hbelow, hvisits⟩ := (stmt.inPostorder .empty).visits stmt.toAst.arena
    stmt.toAst.arena.size (.refl _) (Nat.le_add_left _ _)
  have hwalk : [stmt.toAst.root].mapM
      (stmt.toAst.arena.postorderWithin? stmt.toAst.arena.size) = some below := hbelow
  obtain ⟨walk, rfl, hwalks⟩ := Arena.mapM_walk hwalk
  have hroot := hwalks _ (List.mem_singleton_self _)
  have hrange : walk stmt.toAst.root = List.range stmt.toAst.arena.size := by
    rw [List.map_singleton, List.flatten_singleton] at hvisits
    rw [List.range_eq_range']
    exact hvisits
  exact hroot.trans (congrArg some hrange)

/-- Reading a text in one pass builds the same program, and the walk of that program in post-order
visits its handles one after the other. So it ends in a root which nothing names, each other node
is named once, by a later one, and there are no nodes beside the tree. -/
theorem Ast.postorder_ofText (limit : Nat) (text : List Char) (ast : Ast)
    (h : (Stmt.ofText limit text).map Stmt.toAst = .ok ast) :
    Ast.ofText limit text = .ok ast
      ∧ ast.arena.postorder? ast.root = some (List.range ast.arena.size)
      ∧ ast.root + 1 = ast.arena.size
      ∧ (∀ parent child, ast.arena.Child parent child → child < parent)
      ∧ (∀ handle < ast.arena.size,
        (∃! slot, ast.arena.atSlot? slot = some handle) ↔ handle ≠ ast.root)
      ∧ ∀ handle < ast.arena.size, ast.arena.Reaches ast.root handle := by
  have hbuilt : Ast.ofText limit text = .ok ast := (Ast.ofText_eq limit text).trans h
  have hwalk : ast.arena.postorder? ast.root = some (List.range ast.arena.size) := by
    cases hread : Stmt.ofText limit text with
    | error error => simp [hread, Except.map] at h
    | ok stmt =>
      rw [hread] at h
      obtain rfl := Except.ok.inj h
      exact stmt.postorder?_toAst
  refine ⟨hbuilt, hwalk, Arena.root_of_postorder hwalk, ?_, ?_, ?_⟩
  · intro parent child hchild
    exact Arena.child_lt_of_postorder hwalk hchild
  · intro handle hlt
    exact Arena.existsUnique_slot_iff hwalk hlt
  · intro handle hlt
    exact Arena.reaches_of_postorder hwalk hlt

/-- The parentheses of `x = (1 + y);` push nothing, and the sum is pushed before the assignment. -/
theorem Ast.postorder_ofText_parentheses :
    ∃ ast, (Stmt.ofText 3 "x = (1 + y);".toList).map Stmt.toAst = .ok ast
      ∧ ast.arena.nodes = #[.var "x", .int "1", .var "y", .binary 1 "+" 2, .assign 0 3]
      ∧ ast.arena.postorder? ast.root = some [0, 1, 2, 3, 4] := by
  have hstream : TokenStream.ofText "x = (1 + y);".toList = .ok
      ⟨[⟨.name "x", ⟨1, 1⟩⟩, ⟨.symbol .equals, ⟨1, 3⟩⟩, ⟨.symbol .openParen, ⟨1, 5⟩⟩,
        ⟨.int 1, ⟨1, 6⟩⟩, ⟨.symbol .plus, ⟨1, 8⟩⟩, ⟨.name "y", ⟨1, 10⟩⟩,
        ⟨.symbol .closeParen, ⟨1, 11⟩⟩, ⟨.symbol .semicolon, ⟨1, 12⟩⟩], ⟨1, 13⟩⟩ :=
    TokenStream.ofText_of_toOption (by decide +kernel)
  let stmt : Stmt := .assign (.var "x") (.binary (.int 1) .add (.var "y"))
  have hread : Stmt.ofText 3 "x = (1 + y);".toList = .ok stmt := by
    rw [Stmt.ofText_of_stream hstream]
    rfl
  have hast : (Stmt.ofText 3 "x = (1 + y);".toList).map Stmt.toAst = .ok stmt.toAst := by
    rw [hread]
    rfl
  obtain ⟨-, hwalk, -⟩ := Ast.postorder_ofText 3 _ _ hast
  exact ⟨stmt.toAst, hast, by decide, hwalk⟩

end ScriptFacts
