import ScriptFacts.Fact.Preorder
import ScriptFacts.Fact.Trace
import ScriptFacts.Proofs.Arena.Depth

/-!
# The stack and the recursion

Working off a stack of tasks exports what the recursion exports. The tasks of a node go on top of
the stack and have one level less than the node, so they are done before anything below them, and
what is below them is found as it was.

* `Progress.run_preorder`: a node on top of any stack is exported by recursion, and then the stack.
* `Progress.exists_preorder`: where all handles exist and do not go round, nothing is missing.
* `Ast.exists_preorder`: the whole export.
-/
namespace ScriptFacts

/-- The levels that may lie below a task. -/
def Task.levels : Task → Nat
  | node levels _ => levels
  | list levels _ _ => levels

/-- The handles that a task names. -/
def Task.handles : Task → List Nat
  | node _ handle => [handle]
  | list _ _ items => items

theorem Arena.weight_succ {arena : Arena} {levels handle : Nat} {node : Node}
    (hnode : arena.get? handle = some node) :
    arena.weight (levels + 1) handle
      = 1 + totalWeight (node.fields.map (Field.weight (arena.weight levels))) := by
  rw [Arena.weight, hnode]

namespace Progress

variable {arena : Arena}

/-! ## The tasks of a node -/

theorem levels_of_mem_enter {levels : Nat} {fields : List (Field Nat)} {numbering : Numbering} :
    ∀ task ∈ (enter levels fields numbering).1.tasks, task.levels = levels := by
  induction fields generalizing numbering with
  | nil => simp [enter]
  | cons field fields ih =>
    cases field with
    | digits text | text text => exact ih
    | child handle | children handles =>
      intro task hmem
      rcases List.mem_cons.mp hmem with rfl | hmem
      · rfl
      · exact ih task hmem

theorem handles_of_mem_enter {levels : Nat} {fields : List (Field Nat)} {numbering : Numbering} :
    ∀ task ∈ (enter levels fields numbering).1.tasks, ∀ handle ∈ task.handles,
      handle ∈ fields.flatMap Field.handles := by
  induction fields generalizing numbering with
  | nil => simp [enter]
  | cons field fields ih =>
    cases field with
    | digits text | text text => exact ih
    | child _ | children _ =>
      intro task hmem handle hhandle
      rw [List.flatMap_cons]
      rcases List.mem_cons.mp hmem with rfl | hmem
      · exact List.mem_append_left _ hhandle
      · exact List.mem_append_right _ (ih task hmem handle hhandle)

/-! ## One stack for another -/

theorem preorderList_cons (child : Nat → Progress → Option Progress) (cell item : Nat)
    (items : List Nat) (progress : Progress) :
    preorderList child cell (item :: items) progress
      = (child item (progress.addItem cell item).2).bind
        (preorderList child (progress.addItem cell item).1 items) := rfl

theorem preorderTasks_cons (child : Nat → Progress → Option Progress) (task : Task)
    (tasks : List Task) (progress : Progress) :
    preorderTasks child (task :: tasks) progress
      = (preorderTask child task progress).bind (preorderTasks child tasks) := rfl

theorem preorder_succ (levels handle : Nat) (progress : Progress) :
    preorder arena (levels + 1) handle progress = (arena.get? handle).bind fun node =>
      preorderTasks (preorder arena levels) (progress.addNode levels handle node).1
        (progress.addNode levels handle node).2 := rfl

section Levels

variable {levels : Nat}
  (hnode : ∀ handle more progress, run arena (.node levels handle :: more) progress
    = (preorder arena levels handle progress).bind (run arena more))

include hnode

theorem run_preorderList (cell : Nat) (items : List Nat) (more : List Task) (progress : Progress) :
    run arena (.list levels cell items :: more) progress
      = (preorderList (preorder arena levels) cell items progress).bind (run arena more) := by
  induction items generalizing cell progress with
  | nil => rw [run_cons]; rfl
  | cons item items ih =>
    rw [run_cons]
    show run arena (.node levels item :: .list levels (progress.addItem cell item).1 items :: more)
      (progress.addItem cell item).2 = _
    rw [hnode, preorderList_cons, Option.bind_assoc]
    simp only [ih]

theorem run_preorderTasks (tasks more : List Task) (progress : Progress)
    (hlevels : ∀ task ∈ tasks, task.levels = levels) :
    run arena (tasks ++ more) progress
      = (preorderTasks (preorder arena levels) tasks progress).bind (run arena more) := by
  induction tasks generalizing progress with
  | nil => rfl
  | cons task tasks ih =>
    obtain ⟨hlevel, hlevels⟩ := List.forall_mem_cons.mp hlevels
    have htask : run arena (task :: (tasks ++ more)) progress
        = (preorderTask (preorder arena levels) task progress).bind
          (run arena (tasks ++ more)) := by
      cases task with
      | node _ handle =>
        obtain rfl : _ = levels := hlevel
        exact hnode handle _ progress
      | list _ cell items =>
        obtain rfl : _ = levels := hlevel
        exact run_preorderList hnode cell items _ progress
    rw [List.cons_append, htask, preorderTasks_cons, Option.bind_assoc]
    simp only [fun progress => ih progress hlevels]

end Levels

/-- A node on top of a stack is exported with all that lies below it, and then the stack. -/
theorem run_preorder (levels handle : Nat) (more : List Task) (progress : Progress) :
    run arena (.node levels handle :: more) progress
      = (preorder arena levels handle progress).bind (run arena more) := by
  induction levels generalizing handle more progress with
  | zero => rw [run_cons]; rfl
  | succ levels ih =>
    rw [run_cons, Task.step, preorder_succ]
    cases hget : arena.get? handle with
    | none => rfl
    | some node =>
      have hlevels : ∀ task ∈ (progress.addNode levels handle node).1, task.levels = levels :=
        levels_of_mem_enter
      exact run_preorderTasks ih _ more _ hlevels

theorem run_node (levels handle : Nat) (progress : Progress) :
    run arena [.node levels handle] progress = preorder arena levels handle progress := by
  have hdone : run arena [] = some := funext fun progress => by rw [run]
  rw [run_preorder, hdone, Option.bind_fun_some]

/-! ## Nothing is missing -/

section Total

variable {child : Nat → Progress → Option Progress}

theorem exists_preorderList {cell : Nat} {items : List Nat} (progress : Progress)
    (hchild : ∀ handle ∈ items, ∀ progress, ∃ after, child handle progress = some after) :
    ∃ after, preorderList child cell items progress = some after := by
  induction items generalizing cell progress with
  | nil => exact ⟨_, rfl⟩
  | cons item items ih =>
    obtain ⟨hitem, hitems⟩ := List.forall_mem_cons.mp hchild
    obtain ⟨between, hbetween⟩ := hitem (progress.addItem cell item).2
    obtain ⟨after, hafter⟩ := ih between hitems
    exact ⟨after, by rw [preorderList_cons, hbetween]; exact hafter⟩

theorem exists_preorderTasks {tasks : List Task} (progress : Progress)
    (hchild : ∀ task ∈ tasks, ∀ handle ∈ task.handles, ∀ progress,
      ∃ after, child handle progress = some after) :
    ∃ after, preorderTasks child tasks progress = some after := by
  induction tasks generalizing progress with
  | nil => exact ⟨_, rfl⟩
  | cons task tasks ih =>
    obtain ⟨htask, htasks⟩ := List.forall_mem_cons.mp hchild
    obtain ⟨between, hbetween⟩ : ∃ between, preorderTask child task progress = some between := by
      cases task with
      | node _ handle => exact htask handle (List.mem_singleton_self _) progress
      | list _ cell items => exact exists_preorderList progress htask
    obtain ⟨after, hafter⟩ := ih between htasks
    exact ⟨after, by rw [preorderTasks_cons, hbetween]; exact hafter⟩

end Total

theorem exists_preorder {levels handle : Nat} (h : arena.Fits levels handle)
    (progress : Progress) : ∃ after, preorder arena levels handle progress = some after := by
  induction levels generalizing handle progress with
  | zero => exact h.elim
  | succ levels ih =>
    obtain ⟨node, hnode, hchildren⟩ := h
    rw [preorder_succ, hnode]
    refine exists_preorderTasks _ fun task htask child hchild => ih (hchildren child ?_)
    exact handles_of_mem_enter task htask child hchild

/-! ## The number of facts -/

theorem size_preorderList {child : Nat → Progress → Option Progress} {weight : Nat → Nat}
    (hchild : ∀ handle progress after, child handle progress = some after →
      after.facts.size = progress.facts.size + weight handle)
    {cell : Nat} {items : List Nat} {progress after : Progress}
    (h : preorderList child cell items progress = some after) :
    after.facts.size
      = progress.facts.size + (1 + totalWeight (items.map fun item => weight item + 1)) := by
  induction items generalizing cell progress with
  | nil =>
    obtain rfl := Option.some.inj h
    simp [addEnd, FactSet.push, FactSet.size, totalWeight]
  | cons item items ih =>
    rw [preorderList_cons] at h
    obtain ⟨between, hbetween, hafter⟩ := Option.bind_eq_some_iff.mp h
    have hadd : (progress.addItem cell item).2.facts.size = progress.facts.size + 1 := by
      simp [addItem, FactSet.push, FactSet.size]
    rw [ih hafter, hchild _ _ _ hbetween, hadd, List.map_cons, totalWeight]
    omega

theorem size_preorderTasks {levels : Nat}
    (hnode : ∀ handle progress after, preorder arena levels handle progress = some after →
      after.facts.size = progress.facts.size + arena.weight levels handle)
    {tasks : List Task} {progress after : Progress}
    (hlevels : ∀ task ∈ tasks, task.levels = levels)
    (h : preorderTasks (preorder arena levels) tasks progress = some after) :
    after.facts.size
      = progress.facts.size + totalWeight (tasks.map (Task.weight arena)) := by
  induction tasks generalizing progress with
  | nil =>
    obtain rfl := Option.some.inj h
    simp [totalWeight]
  | cons task tasks ih =>
    obtain ⟨hlevel, hlevels⟩ := List.forall_mem_cons.mp hlevels
    rw [preorderTasks_cons] at h
    obtain ⟨between, hbetween, hafter⟩ := Option.bind_eq_some_iff.mp h
    have htask : between.facts.size = progress.facts.size + task.weight arena := by
      cases task with
      | node _ handle =>
        obtain rfl : _ = levels := hlevel
        exact hnode _ _ _ hbetween
      | list _ cell items =>
        obtain rfl : _ = levels := hlevel
        exact size_preorderList hnode hbetween
    rw [ih hlevels hafter, htask, List.map_cons, totalWeight]
    omega

/-- The weight of a node is the number of facts that are exported below it. -/
theorem size_preorder {levels handle : Nat} {progress after : Progress}
    (h : preorder arena levels handle progress = some after) :
    after.facts.size = progress.facts.size + arena.weight levels handle := by
  induction levels generalizing handle progress after with
  | zero => simp [preorder] at h
  | succ levels ih =>
    rw [preorder_succ] at h
    obtain ⟨node, hnode, htasks⟩ := Option.bind_eq_some_iff.mp h
    have hadd : (progress.addNode levels handle node).2.facts.size = progress.facts.size + 1 := by
      simp [addNode, FactSet.push, FactSet.size]
    have hlevels : ∀ task ∈ (progress.addNode levels handle node).1, task.levels = levels :=
      levels_of_mem_enter
    rw [size_preorderTasks (fun _ _ _ => ih) hlevels htasks, hadd,
      Arena.weight_succ hnode]
    show _ + totalWeight ((enter levels node.fields _).1.tasks.map (Task.weight arena)) = _
    rw [weight_enter]
    omega

/-! ## Levels to spare -/

theorem args_enter (levels more : Nat) (fields : List (Field Nat)) (numbering : Numbering) :
    (enter levels fields numbering).1.args = (enter more fields numbering).1.args
      ∧ (enter levels fields numbering).2 = (enter more fields numbering).2 := by
  induction fields generalizing numbering with
  | nil => exact ⟨rfl, rfl⟩
  | cons field fields ih => cases field <;> simp [enter, ih]

theorem addNode_levels (progress : Progress) (levels more handle : Nat) (node : Node) :
    (progress.addNode levels handle node).2 = (progress.addNode more handle node).2 := by
  obtain ⟨hargs, hnumbering⟩ :=
    args_enter levels more node.fields (progress.numbering.node handle).2
  simp [addNode, hargs, hnumbering]

section Levels

variable {child child' : Nat → Progress → Option Progress}
  (hmono : ∀ {handle progress after}, child handle progress = some after →
    child' handle progress = some after)

include hmono

theorem preorderList_mono {cell : Nat} {items : List Nat} {progress after : Progress}
    (h : preorderList child cell items progress = some after) :
    preorderList child' cell items progress = some after := by
  induction items generalizing cell progress with
  | nil => exact h
  | cons item items ih =>
    rw [preorderList_cons] at h ⊢
    obtain ⟨between, hbetween, hafter⟩ := Option.bind_eq_some_iff.mp h
    rw [hmono hbetween]
    exact ih hafter

theorem preorderTasks_mono {levels more : Nat} {fields : List (Field Nat)} {numbering : Numbering}
    {progress after : Progress}
    (h : preorderTasks child (enter levels fields numbering).1.tasks progress = some after) :
    preorderTasks child' (enter more fields numbering).1.tasks progress = some after := by
  induction fields generalizing numbering progress with
  | nil => exact h
  | cons field fields ih =>
    cases field with
    | digits text | text text => exact ih h
    | child handle =>
      obtain ⟨between, hbetween, hafter⟩ := Option.bind_eq_some_iff.mp h
      exact Option.bind_eq_some_iff.mpr ⟨between, hmono hbetween, ih hafter⟩
    | children handles =>
      obtain ⟨between, hbetween, hafter⟩ := Option.bind_eq_some_iff.mp h
      exact Option.bind_eq_some_iff.mpr ⟨between, preorderList_mono hmono hbetween, ih hafter⟩

end Levels

/-- More levels than a program needs change nothing. -/
theorem preorder_mono {levels more handle : Nat} {progress after : Progress} (hle : levels ≤ more)
    (h : preorder arena levels handle progress = some after) :
    preorder arena more handle progress = some after := by
  induction levels generalizing more handle progress after with
  | zero => simp [preorder] at h
  | succ levels ih =>
    obtain ⟨more, rfl⟩ : ∃ n, more = n + 1 := ⟨more - 1, by omega⟩
    rw [preorder_succ] at h ⊢
    obtain ⟨node, hnode, htasks⟩ := Option.bind_eq_some_iff.mp h
    rw [hnode, Option.bind_some, ← addNode_levels progress levels more handle node]
    exact preorderTasks_mono (ih (Nat.le_of_succ_le_succ hle)) htasks

end Progress

/-- What a step leaves to be done leads no further than the task itself. -/
theorem Task.Steps.reaches {arena : Arena} {root : Nat} {task : Task} {tasks : List Task}
    {progress after : Progress} (h : task.Steps arena progress tasks after)
    (hreach : ∀ handle ∈ task.handles, arena.Reaches root handle) :
    ∀ next ∈ tasks, ∀ handle ∈ next.handles, arena.Reaches root handle := by
  cases h with
  | @node levels handle node hnode =>
    intro next hnext child hchild
    have hhandle := hreach handle (List.mem_singleton_self handle)
    have hmem : child ∈ node.children := Progress.handles_of_mem_enter next hnext child hchild
    exact hhandle.trans (.child ⟨node, hnode, hmem⟩ (.refl child))
  | done => simp
  | item => simpa [handles] using hreach

/-! ## The whole export -/

/-- An export by stack ends, if the handles of the program lead down to nodes and never back, and it
ends where the recursion ends. The levels are as many as there are nodes, or more. -/
theorem Ast.exists_preorder {ast : Ast} (hclosed : ast.arena.Closed ast.root)
    (hacyclic : ast.arena.Acyclic ast.root) :
    ∃ final, ast.export? = some final ∧ ∀ levels, ast.arena.size ≤ levels →
      Progress.preorder ast.arena levels ast.root .start = some final
        ∧ Progress.run ast.arena [.node levels ast.root] .start = some final := by
  obtain ⟨final, hfinal⟩ :=
    Progress.exists_preorder (Arena.fits_of_acyclic hclosed hacyclic) .start
  refine ⟨final, ?_, fun levels hlevels => ?_⟩
  · rw [Ast.export?, Progress.run_node, hfinal]
  · have hmore := Progress.preorder_mono hlevels hfinal
    exact ⟨hmore, by rw [Progress.run_node, hmore]⟩

theorem Ast.exists_export {ast : Ast} (hclosed : ast.arena.Closed ast.root)
    (hacyclic : ast.arena.Acyclic ast.root) : ∃ final, ast.export? = some final :=
  (exists_preorder hclosed hacyclic).imp fun _ => And.left

/-- The program `print [x, x];` with one node for both items. -/
def Ast.sharing : Ast := ⟨⟨#[.var "x", .array [0, 0], .print 1]⟩, 2, by decide⟩

theorem Ast.descends_sharing : Ast.sharing.arena.Descends :=
  .of_nodes (by decide)

end ScriptFacts
