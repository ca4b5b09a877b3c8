import ScriptFacts.Arena.Renaming
import ScriptFacts.Proofs.Fact.Recursion
import Std.Data.TreeMap.Lemmas

/-!
# Handles do not show in facts

Two arenas that hold the same program are exported step by step in the same way. The stacks name the
same nodes, each arena by its own handles, and a node has a number in one export if it has one in
the other, namely the same. Only numbers get into facts, so the facts are the same.

* `Numbering.Matches.node`, `Numbering.Matches.cell`: the same numbers are given out.
* `Progress.Matches.step`: one step adds the same fact on both sides.
* `Progress.Matches.traces`: so does every step of a whole trace.
* `Ast.facts_rename`: programs that differ in their handles have the same facts.
-/
namespace ScriptFacts

/-- The same task in an arena with other handles. -/
def Task.map (f : Nat → Nat) : Task → Task
  | .node levels handle => .node levels (f handle)
  | .list levels cell items => .list levels cell (items.map f)

theorem Task.handle?_map (f : Nat → Nat) (task : Task) :
    (task.map f).handle? = task.handle?.map f := by
  cases task <;> rfl

/-- The numberings gave out the same numbers, and those for nodes that are reached went to the same
nodes. What the second knows of other handles does not matter. -/
structure Numbering.Matches (rename : Nat → Nat) (first : Ast) (numbering other : Numbering) :
    Prop where
  issued : numbering.issued = other.issued
  known : ∀ handle, first.arena.Reaches first.root handle →
    numbering.known[handle]? = other.known[rename handle]?

/-- The exports are equally far. -/
structure Progress.Matches (rename : Nat → Nat) (first : Ast) (progress other : Progress) :
    Prop where
  numbering : progress.numbering.Matches rename first other.numbering
  facts : progress.facts = other.facts

section Matches

variable {rename : Nat → Nat} {first second : Ast}

/-! ## Numbers -/

namespace Numbering.Matches

variable {numbering other : Numbering}

/-- A node has the number that it has under its new handle, or takes the same new number. -/
theorem node (h : numbering.Matches rename first other) (hrenames : first.Renames rename second)
    {handle : Nat} (hhandle : first.arena.Reaches first.root handle) :
    (numbering.node handle).1 = (other.node (rename handle)).1
      ∧ (numbering.node handle).2.Matches rename first (other.node (rename handle)).2 := by
  have hknown := h.known handle hhandle
  unfold Numbering.node
  rw [← hknown]
  cases numbering.known[handle]? with
  | some number => exact ⟨rfl, h⟩
  | none =>
    refine ⟨congrArg (· + 1) h.issued, congrArg (· + 1) h.issued, ?_⟩
    intro third hthird
    simp only [Std.TreeMap.getElem?_insert, h.issued]
    by_cases hsame : handle = third
    · simp [hsame]
    · have hother : rename handle ≠ rename third := by
        intro heq
        exact hsame (hrenames.injective handle third hhandle hthird heq)
      simp [hsame, hother, h.known third hthird]

/-- A cell takes the same new number. -/
theorem cell (h : numbering.Matches rename first other) :
    numbering.cell.1 = other.cell.1 ∧ numbering.cell.2.Matches rename first other.cell.2 :=
  ⟨congrArg (· + 1) h.issued, congrArg (· + 1) h.issued, h.known⟩

end Numbering.Matches

/-! ## Steps -/

namespace Progress

/-- Fields with the same texts give the same arguments, and the same tasks under new handles. -/
theorem enter_map (hrenames : first.Renames rename second) (levels : Nat)
    {fields : List (Field Nat)} {numbering other : Numbering}
    (h : numbering.Matches rename first other)
    (hfields : ∀ handle ∈ fields.flatMap Field.handles, first.arena.Reaches first.root handle) :
    (enter levels (fields.map (Field.map rename)) other).1.args
        = (enter levels fields numbering).1.args
      ∧ (enter levels (fields.map (Field.map rename)) other).1.tasks
        = (enter levels fields numbering).1.tasks.map (Task.map rename)
      ∧ (enter levels fields numbering).2.Matches rename first
        (enter levels (fields.map (Field.map rename)) other).2 := by
  induction fields generalizing numbering other with
  | nil => exact ⟨rfl, rfl, h⟩
  | cons field fields ih =>
    rw [List.flatMap_cons] at hfields
    obtain ⟨hfield, hmore⟩ := List.forall_mem_append.mp hfields
    cases field with
    | digits value | text value =>
      obtain ⟨hargs, htasks, hmatches⟩ := ih h hmore
      exact ⟨congrArg (value :: ·) hargs, htasks, hmatches⟩
    | child handle =>
      obtain ⟨hnumber, hnode⟩ := h.node hrenames (hfield handle (List.mem_singleton_self handle))
      obtain ⟨hargs, htasks, hmatches⟩ := ih hnode hmore
      refine ⟨?_, congrArg (Task.node levels (rename handle) :: ·) htasks, hmatches⟩
      simp [enter, Field.map, hnumber, hargs]
    | children items =>
      obtain ⟨hnumber, hcell⟩ := h.cell
      obtain ⟨hargs, htasks, hmatches⟩ := ih hcell hmore
      refine ⟨?_, ?_, hmatches⟩
      · simp [enter, Field.map, hnumber, hargs]
      · simp [enter, Field.map, Task.map, hnumber, htasks]

variable {progress other : Progress}

/-- A node adds the same fact under its new handle. -/
theorem Matches.addNode (h : progress.Matches rename first other)
    (hrenames : first.Renames rename second) (levels : Nat) {handle : Nat} {node found : Node}
    (hhandle : first.arena.Reaches first.root handle)
    (hchildren : ∀ child ∈ node.children, first.arena.Reaches first.root child)
    (hnode : node.Renames rename found) :
    (other.addNode levels (rename handle) found).1
        = (progress.addNode levels handle node).1.map (Task.map rename)
      ∧ (progress.addNode levels handle node).2.Matches rename first
        (other.addNode levels (rename handle) found).2 := by
  obtain ⟨hnumber, hmatches⟩ := h.numbering.node hrenames hhandle
  obtain ⟨hargs, htasks, hmatches⟩ := enter_map hrenames levels hmatches hchildren
  rw [← hnode.fields] at hargs htasks hmatches
  refine ⟨htasks, hmatches, ?_⟩
  simp only [Progress.addNode, h.facts, hnode.kind, hnumber, hargs]

/-- An item adds the same fact, and the list goes on at the same cell. -/
theorem Matches.addItem (h : progress.Matches rename first other)
    (hrenames : first.Renames rename second) (cell : Nat) {item : Nat}
    (hitem : first.arena.Reaches first.root item) :
    (other.addItem cell (rename item)).1 = (progress.addItem cell item).1
      ∧ (progress.addItem cell item).2.Matches rename first
        (other.addItem cell (rename item)).2 := by
  obtain ⟨hnumber, hnode⟩ := h.numbering.node hrenames hitem
  obtain ⟨hnext, hcell⟩ := hnode.cell
  refine ⟨hnext.symm, hcell, ?_⟩
  show progress.facts.push
      (.elemAt cell (progress.numbering.node item).1 (progress.numbering.node item).2.cell.1)
    = other.facts.push (.elemAt cell (other.numbering.node (rename item)).1
      (other.numbering.node (rename item)).2.cell.1)
  rw [h.facts, hnumber, hnext]

/-- One step adds the same fact, and leaves the same tasks under new handles. -/
theorem Matches.step (h : progress.Matches rename first other)
    (hrenames : first.Renames rename second) {task : Task} {tasks : List Task} {after : Progress}
    (hreach : ∀ handle ∈ task.handles, first.arena.Reaches first.root handle)
    (hstep : task.Steps first.arena progress tasks after) :
    ∃ after', (task.map rename).Steps second.arena other (tasks.map (Task.map rename)) after'
      ∧ after.Matches rename first after' := by
  cases hstep with
  | @node levels handle node hnode =>
    have hhandle := hreach handle (List.mem_singleton_self handle)
    obtain ⟨found, hfound, hnode'⟩ := hrenames.node handle node hhandle hnode
    have hchildren : ∀ child ∈ node.children, first.arena.Reaches first.root child :=
      fun child hchild => hhandle.trans (.child ⟨node, hnode, hchild⟩ (.refl child))
    obtain ⟨htasks, hmatches⟩ := h.addNode hrenames levels hhandle hchildren hnode'
    rw [← htasks]
    exact ⟨_, .node hfound, hmatches⟩
  | @done levels cell =>
    exact ⟨_, .done, h.numbering, congrArg (·.push (.emptyAt cell)) h.facts⟩
  | @item levels cell item items =>
    obtain ⟨hnext, hmatches⟩ := h.addItem hrenames cell (hreach item List.mem_cons_self)
    refine ⟨_, ?_, hmatches⟩
    rw [List.map_cons, List.map_singleton, Task.map, Task.map, ← hnext]
    exact .item

/-- All steps of a trace can be taken under the new handles. -/
theorem Matches.traces (h : progress.Matches rename first other)
    (hrenames : first.Renames rename second) {tasks : List Task} {sources : List (Option Nat)}
    {final : Progress}
    (hreach : ∀ task ∈ tasks, ∀ handle ∈ task.handles, first.arena.Reaches first.root handle)
    (htraces : Traces first.arena tasks progress sources final) :
    ∃ final', Traces second.arena (tasks.map (Task.map rename)) other
        (sources.map (Option.map rename)) final'
      ∧ final.Matches rename first final' := by
  induction htraces generalizing other with
  | done => exact ⟨other, .done, h⟩
  | @step task tasks more sources progress between final hstep _ ih =>
    obtain ⟨htask, htasks⟩ := List.forall_mem_cons.mp hreach
    obtain ⟨between', hstep', hmatches⟩ := h.step hrenames htask hstep
    have hmore : ∀ task ∈ more ++ tasks, ∀ handle ∈ task.handles,
        first.arena.Reaches first.root handle :=
      List.forall_mem_append.mpr ⟨hstep.reaches htask, htasks⟩
    obtain ⟨final', htraces, hfinal⟩ := ih hmatches hmore
    rw [List.map_append] at htraces
    refine ⟨final', ?_, hfinal⟩
    rw [List.map_cons, List.map_cons, ← task.handle?_map]
    exact .step hstep' htraces

end Progress

end Matches

/-- Programs of which one is the other under new handles have the same facts in the same order. -/
theorem Ast.facts_rename (first second : Ast) (rename : Nat → Nat)
    (hclosed : first.arena.Closed first.root) (hacyclic : first.arena.Acyclic first.root)
    (hrenames : first.Renames rename second) :
    ∃ facts, first.facts? = some facts ∧ second.facts? = some facts := by
  obtain ⟨final, hfinal, hlevels⟩ := exists_preorder hclosed hacyclic
  obtain ⟨final', hfinal', hlevels'⟩ :=
    exists_preorder (hrenames.closed hclosed) (hrenames.acyclic hclosed hacyclic)
  -- Each arena has levels enough for its own nodes, so their sum is enough for both.
  have hrun := (hlevels (first.arena.size + second.arena.size) (Nat.le_add_right _ _)).2
  have hrun' := (hlevels' (first.arena.size + second.arena.size) (Nat.le_add_left _ _)).2
  obtain ⟨sources, htraces⟩ := Progress.exists_traces hrun
  have hstart : Progress.start.Matches rename first .start :=
    ⟨⟨rfl, fun handle _ => by simp [Progress.start, Numbering.fresh]⟩, rfl⟩
  have hroot : ∀ task ∈ [Task.node (first.arena.size + second.arena.size) first.root],
      ∀ handle ∈ task.handles, first.arena.Reaches first.root handle := by
    simpa [Task.handles] using Arena.Reaches.refl first.root
  obtain ⟨other, hother, hmatches⟩ := hstart.traces hrenames hroot htraces
  have hsame := hother.run_eq
  rw [List.map_singleton, Task.map, hrenames.root, hrun'] at hsame
  obtain rfl := Option.some.inj hsame
  refine ⟨final.facts, by rw [facts?, hfinal]; rfl, ?_⟩
  rw [facts?, hfinal', Option.map_some, hmatches.facts]

/-- The program `print [x, x];` stored from the root down, after a node that nothing leads to. -/
def Ast.sharingDown : Ast := ⟨⟨#[.int "7", .print 2, .array [3, 3], .var "x"]⟩, 1, by decide⟩

/-- Whether children or parents come first, the facts are the same. -/
theorem Ast.facts_rename_sharing :
    ∃ facts, Ast.sharing.facts? = some facts ∧ Ast.sharingDown.facts? = some facts := by
  have hle : ∀ handle, Ast.sharing.arena.Reaches 2 handle → handle ≤ 2 :=
    fun handle hhandle => descends_sharing.le_of_reaches hhandle
  refine facts_rename _ _ (3 - ·) (descends_sharing.closed sharing.root_lt)
    (descends_sharing.acyclic 2) ⟨rfl, ?_, ?_⟩
  · intro handle other hhandle hother hsame
    have hhandle := hle handle hhandle
    have hother := hle other hother
    omega
  · intro handle node hhandle hnode
    have hcases : handle = 0 ∨ handle = 1 ∨ handle = 2 := by
      have := hle handle hhandle
      omega
    rcases hcases with rfl | rfl | rfl
    · obtain rfl : Node.var "x" = node := Option.some.inj hnode
      exact ⟨.var "x", rfl, rfl, rfl⟩
    · obtain rfl : Node.array [0, 0] = node := Option.some.inj hnode
      exact ⟨.array [3, 3], rfl, rfl, rfl⟩
    · obtain rfl : Node.print 1 = node := Option.some.inj hnode
      exact ⟨.print 2, rfl, rfl, rfl⟩

end ScriptFacts
