import ScriptFacts.Arena.Basic
import ScriptFacts.Fact.Basic
import ScriptFacts.Fact.Numbering

/-!
# Exporting programs

A program is exported from its root downwards. A node gives a fact of its kind: its identifier,
then for each field the text, the identifier of the child, or a new cell at which the list of
children begins. Its children are exported after it, in field order. At a cell, an empty list
gives the fact that it ends; otherwise the next cell is numbered, a fact joins the cell, the first
item and the next cell, the item is exported, and the list goes on at the next cell.

The work that remains is a stack of tasks, so the depth of a program is no burden. Each task
carries the number of levels that may still lie below it. A program whose handles exist and do not
go round in a circle has no more levels than nodes, so none is ever missing; the export fails when
a handle leads nowhere or the levels run out.

* `Task.weight_step`: a step leaves less work than it takes up.
-/
namespace ScriptFacts

/-! ## Tasks -/

/-- Something that remains to be exported, no deeper than `levels`. -/
inductive Task
  /-- The node at a handle. -/
  | node (levels handle : Nat)
  /-- The list that goes on at a cell with these items. -/
  | list (levels cell : Nat) (items : List Nat)
deriving DecidableEq, Repr

/-- What has been exported so far. -/
structure Progress where
  numbering : Numbering
  facts : FactSet

/-- What a field contributes to its node's fact. -/
structure Entries where
  args : List String
  tasks : List Task

namespace Progress

/-- Nothing exported. -/
def start : Progress := ⟨.fresh, .empty⟩

/-- The arguments and the tasks of fields, numbered from left to right. -/
def enter (levels : Nat) : List (Field Nat) → Numbering → Entries × Numbering
  | [], numbering => (⟨[], []⟩, numbering)
  | .digits text :: fields, numbering =>
    let (entries, numbering) := enter levels fields numbering
    (⟨text :: entries.args, entries.tasks⟩, numbering)
  | .text text :: fields, numbering =>
    let (entries, numbering) := enter levels fields numbering
    (⟨text :: entries.args, entries.tasks⟩, numbering)
  | .child handle :: fields, numbering =>
    let (number, numbering) := numbering.node handle
    let (entries, numbering) := enter levels fields numbering
    (⟨number.repr :: entries.args, .node levels handle :: entries.tasks⟩, numbering)
  | .children handles :: fields, numbering =>
    let (cell, numbering) := numbering.cell
    let (entries, numbering) := enter levels fields numbering
    (⟨cell.repr :: entries.args, .list levels cell handles :: entries.tasks⟩, numbering)

@[simp] theorem length_enter (levels : Nat) (fields : List (Field Nat)) (numbering : Numbering) :
    (enter levels fields numbering).1.args.length = fields.length := by
  induction fields generalizing numbering with
  | nil => rfl
  | cons field fields ih => cases field <;> simp [enter, ih]

/-- Exports a node without its children, which become tasks of `levels` levels. -/
def addNode (progress : Progress) (levels handle : Nat) (node : Node) : List Task × Progress :=
  let number := progress.numbering.node handle
  let entered := enter levels node.fields number.2
  let fact : Fact := {
    relation := .node node.kind
    args := number.1.repr :: entered.1.args
    length_args := by simp [entered, Relation.arity, node.length_fields, Nat.add_comm] }
  (entered.1.tasks, ⟨entered.2, progress.facts.push fact⟩)

/-- Exports the end of a list. -/
def addEnd (progress : Progress) (cell : Nat) : Progress :=
  { progress with facts := progress.facts.push (.emptyAt cell) }

/-- Exports a cell with its item's number, and tells the next cell. -/
def addItem (progress : Progress) (cell handle : Nat) : Nat × Progress :=
  let (item, numbering) := progress.numbering.node handle
  let (next, numbering) := numbering.cell
  (next, ⟨numbering, progress.facts.push (.elemAt cell item next)⟩)

end Progress

/-- Does the first part of a task, and tells what remains of it. -/
def Task.step (arena : Arena) : Task → Progress → Option (List Task × Progress)
  | .node 0 _, _ => none
  | .node (levels + 1) handle, progress =>
    (arena.get? handle).map fun node => progress.addNode levels handle node
  | .list _ cell [], progress => some ([], progress.addEnd cell)
  | .list levels cell (item :: items), progress =>
    let (next, progress) := progress.addItem cell item
    some ([.node levels item, .list levels next items], progress)

/-! ## The amount of work -/

/-- The sum of some amounts of work. -/
def totalWeight : List Nat → Nat
  | [] => 0
  | weight :: weights => weight + totalWeight weights

@[simp] theorem totalWeight_append (first second : List Nat) :
    totalWeight (first ++ second) = totalWeight first + totalWeight second := by
  induction first with
  | nil => simp [totalWeight]
  | cons weight weights ih => simp [totalWeight, ih, Nat.add_assoc]

/-- The work that a field stands for, given the work of children. -/
def Field.weight (child : Nat → Nat) : Field Nat → Nat
  | .digits _ => 0
  | .text _ => 0
  | .child handle => child handle
  | .children handles => 1 + totalWeight (handles.map fun handle => child handle + 1)

/-- The number of facts below a handle, within a number of levels. -/
def Arena.weight (arena : Arena) : (levels : Nat) → Nat → Nat
  | 0, _ => 1
  | levels + 1, handle =>
    match arena.get? handle with
    | none => 1
    | some node => 1 + totalWeight (node.fields.map (Field.weight (arena.weight levels)))

/-- The work of a task. -/
def Task.weight (arena : Arena) : Task → Nat
  | .node levels handle => arena.weight levels handle
  | .list levels _ items => 1 + totalWeight (items.map fun item => arena.weight levels item + 1)

theorem Progress.weight_enter (arena : Arena) (levels : Nat) (fields : List (Field Nat))
    (numbering : Numbering) :
    totalWeight ((enter levels fields numbering).1.tasks.map (Task.weight arena))
      = totalWeight (fields.map (Field.weight (arena.weight levels))) := by
  induction fields generalizing numbering with
  | nil => rfl
  | cons field fields ih => cases field <;> simp [enter, ih, Task.weight, Field.weight, totalWeight]

theorem Task.weight_step {arena : Arena} {task : Task} {progress after : Progress}
    {tasks : List Task} (h : task.step arena progress = some (tasks, after)) :
    totalWeight (tasks.map (Task.weight arena)) < task.weight arena := by
  match task with
  | .node 0 _ => simp [step] at h
  | .node (levels + 1) handle =>
    simp only [step, Option.map_eq_some_iff] at h
    obtain ⟨node, hnode, heq⟩ := h
    simp only [Progress.addNode, Prod.mk.injEq] at heq
    rw [← heq.1, Progress.weight_enter]
    simp [weight, Arena.weight, hnode]
  | .list levels cell [] =>
    simp only [step, Option.some.injEq, Prod.mk.injEq] at h
    simp [← h.1, weight, totalWeight]
  | .list levels cell (item :: items) =>
    simp only [step, Option.some.injEq, Prod.mk.injEq] at h
    simp [← h.1, weight, totalWeight]
    omega

/-! ## The whole export -/

/-- Works a stack of tasks off. -/
def Progress.run (arena : Arena) (tasks : List Task) (progress : Progress) : Option Progress :=
  match tasks with
  | [] => some progress
  | task :: tasks =>
    match _h : task.step arena progress with
    | none => none
    | some (more, progress) => run arena (more ++ tasks) progress
termination_by totalWeight (tasks.map (Task.weight arena))
decreasing_by
  have := Task.weight_step _h
  simp only [List.map_append, totalWeight_append, List.map_cons, totalWeight]
  omega

/-- The end of a program's export, if all its handles exist. -/
def Ast.export? (ast : Ast) : Option Progress :=
  Progress.run ast.arena [.node ast.arena.size ast.root] .start

/-- The facts of a program. -/
def Ast.facts? (ast : Ast) : Option FactSet :=
  ast.export?.map Progress.facts

end ScriptFacts
