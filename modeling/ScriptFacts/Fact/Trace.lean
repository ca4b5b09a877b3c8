import ScriptFacts.Fact.Export

/-!
# Traces of an export

Every step of an export adds one fact, about the node of a handle or about a list cell. A trace
tells an export step by step, and keeps for each fact the handle for which it was made. So it says
what the facts themselves leave out, for a fact names its node by an identifier alone.

* `Task.step_eq_some_iff`: what a step does.
* `Task.Steps.exists_fact`: a step adds one fact.
* `Progress.run_eq_some_iff`: the traces of a program are its exports.
-/
namespace ScriptFacts

/-- The handle for which a task makes its next fact, unless that fact is about a list cell. -/
def Task.handle? : Task → Option Nat
  | .node _ handle => some handle
  | .list _ _ _ => none

/-- What a step does: it exports a node, if the handle leads to one and a level is left, it ends a
list, or it exports one cell of a list and leaves the item and the next cell. -/
inductive Task.Steps (arena : Arena) (progress : Progress) :
    Task → List Task → Progress → Prop
  | node {levels handle : Nat} {node : Node} (hnode : arena.get? handle = some node) :
    Steps arena progress (.node (levels + 1) handle) (progress.addNode levels handle node).1
      (progress.addNode levels handle node).2
  | done {levels cell : Nat} :
    Steps arena progress (.list levels cell []) [] (progress.addEnd cell)
  | item {levels cell item : Nat} {items : List Nat} :
    Steps arena progress (.list levels cell (item :: items))
      [.node levels item, .list levels (progress.addItem cell item).1 items]
      (progress.addItem cell item).2

theorem Task.step_eq_some_iff {arena : Arena} {task : Task} {progress after : Progress}
    {tasks : List Task} :
    task.step arena progress = some (tasks, after) ↔ task.Steps arena progress tasks after := by
  constructor
  · intro h
    cases task with
    | node levels handle =>
      cases levels with
      | zero => simp [step] at h
      | succ levels =>
        obtain ⟨node, hnode, hadd⟩ := Option.map_eq_some_iff.mp h
        obtain ⟨rfl, rfl⟩ := Prod.mk.inj hadd
        exact .node hnode
    | list levels cell items =>
      cases items with
      | nil =>
        obtain ⟨rfl, rfl⟩ := Prod.mk.inj (Option.some.inj h)
        exact .done
      | cons item items =>
        obtain ⟨rfl, rfl⟩ := Prod.mk.inj (Option.some.inj h)
        exact .item
  · intro h
    cases h with
    | node hnode => exact Option.map_eq_some_iff.mpr ⟨_, hnode, rfl⟩
    | done | item => rfl

theorem Task.Steps.exists_fact {arena : Arena} {task : Task} {progress after : Progress}
    {tasks : List Task} (h : task.Steps arena progress tasks after) :
    ∃ fact, after.facts = progress.facts.push fact := by
  cases h with
  | node _ | done | item => exact ⟨_, rfl⟩

/-- A fact made for a handle is of the kind of the node there, and any other is about a cell. -/
def Arena.Makes (arena : Arena) (fact : Fact) : Option Nat → Prop
  | some handle => ∃ node, arena.get? handle = some node ∧ fact.relation = .node node.kind
  | none => fact.relation = .elem ∨ fact.relation = .empty

namespace Progress

/-- Working the tasks off leads from `progress` to `final`, and these are the handles for which the
facts are made on the way, or none for a fact about a list cell. -/
inductive Traces (arena : Arena) :
    List Task → Progress → List (Option Nat) → Progress → Prop
  | done {progress : Progress} : Traces arena [] progress [] progress
  | step {task : Task} {tasks more : List Task} {sources : List (Option Nat)}
    {progress between final : Progress} (hstep : task.Steps arena progress more between)
    (hmore : Traces arena (more ++ tasks) between sources final) :
    Traces arena (task :: tasks) progress (task.handle? :: sources) final

variable {arena : Arena}

theorem run_cons (task : Task) (tasks : List Task) (progress : Progress) :
    run arena (task :: tasks) progress
      = (task.step arena progress).bind fun next => run arena (next.1 ++ tasks) next.2 := by
  rw [run]
  split <;> simp_all

theorem Traces.run_eq {tasks : List Task} {progress final : Progress}
    {sources : List (Option Nat)} (h : Traces arena tasks progress sources final) :
    run arena tasks progress = some final := by
  induction h with
  | done => rw [run]
  | step hstep _ ih => rw [run_cons, Task.step_eq_some_iff.mpr hstep, Option.bind_some, ih]

theorem exists_traces : {tasks : List Task} → {progress final : Progress} →
    run arena tasks progress = some final → ∃ sources, Traces arena tasks progress sources final
  | [], progress, final, h => by
    rw [run] at h
    obtain rfl := Option.some.inj h
    exact ⟨[], .done⟩
  | task :: tasks, progress, final, h => by
    rw [run_cons] at h
    obtain ⟨⟨more, between⟩, hstep, hrun⟩ := Option.bind_eq_some_iff.mp h
    have hless := Task.weight_step hstep
    obtain ⟨sources, hmore⟩ := exists_traces hrun
    exact ⟨_, .step (Task.step_eq_some_iff.mp hstep) hmore⟩
termination_by tasks => totalWeight (tasks.map (Task.weight arena))
decreasing_by
  simp only [List.map_append, totalWeight_append, List.map_cons, totalWeight]
  omega

/-- An export that ends has a trace, and what has a trace is an export that ends. -/
theorem run_eq_some_iff {tasks : List Task} {progress final : Progress} :
    run arena tasks progress = some final ↔ ∃ sources, Traces arena tasks progress sources final :=
  ⟨exists_traces, fun ⟨_, h⟩ => h.run_eq⟩

end Progress

end ScriptFacts
