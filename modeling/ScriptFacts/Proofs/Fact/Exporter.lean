import ScriptFacts.Fact.Exporter
import ScriptFacts.Proofs.Fact.Recursion

/-!
# The export does not break off

A task without its levels is an errand. As long as the levels suffice, both take the same steps, and
the number of steps is known beforehand: it is the number of facts. So the export of a program in
which no handle leads nowhere or back comes to an end, and every fact has as many arguments as its
relation takes.

* `Errand.run_eq`: errands are run off as tasks are.
* `Ast.exportFacts_eq`: so is the export of a program.
* `Ast.export_eq_preorder`: by stack, by recursion and by errands the export is the same.
-/
namespace ScriptFacts

/-- A task without its levels. -/
def Task.errand : Task → Errand
  | .node _ handle => .node handle
  | .list _ cell items => .list cell items

namespace Errand

variable {arena : Arena}

theorem gather_eq (levels : Nat) (fields : List (Field Nat)) (numbering : Numbering) :
    gather fields numbering
      = (((Progress.enter levels fields numbering).1.args,
          (Progress.enter levels fields numbering).1.tasks.map Task.errand),
        (Progress.enter levels fields numbering).2) := by
  induction fields generalizing numbering with
  | nil => rfl
  | cons field fields ih => cases field <;> simp [gather, Progress.enter, Task.errand, ih]

theorem emit_fact (fact : Fact) (numbering : Numbering) (facts : FactSet) :
    emit fact.relation fact.args numbering facts = .ok ⟨numbering, facts.push fact⟩ := by
  have hfact : Fact.ofArgs? fact.relation fact.args = some fact := dif_pos fact.length_args
  rw [emit, hfact]

/-- An errand takes the step that its task takes. -/
theorem step_eq {task : Task} {progress after : Progress} {tasks : List Task}
    (h : task.step arena progress = some (tasks, after)) :
    task.errand.step arena progress = .ok (tasks.map Task.errand, after) := by
  cases Task.step_eq_some_iff.mp h with
  | @node levels handle found hfound =>
    let number := progress.numbering.node handle
    let entered := Progress.enter levels found.fields number.2
    -- The fact that the task makes has the relation and the arguments that the errand gives.
    let fact : Fact :=
      ⟨.node found.kind, number.1.repr :: entered.1.args, by
        simp [entered, Relation.arity, found.length_fields, Nat.add_comm]⟩
    have hemit : emit (.node found.kind) (number.1.repr :: entered.1.args) entered.2
        progress.facts = .ok ⟨entered.2, progress.facts.push fact⟩ := emit_fact fact _ _
    show step arena (.node handle) progress = _
    rw [step, hfound]
    simp only [gather_eq levels]
    show (emit (.node found.kind) (number.1.repr :: entered.1.args) entered.2 progress.facts
      >>= fun after => .ok (entered.1.tasks.map Task.errand, after)) = _
    rw [hemit]
    rfl
  | done | item => rfl

/-- Errands are run off as tasks are, if there are rounds enough for their work. -/
theorem run_eq {tasks : List Task} {progress after : Progress} {rounds : Nat}
    (h : Progress.run arena tasks progress = some after)
    (hrounds : totalWeight (tasks.map (Task.weight arena)) ≤ rounds) :
    run arena rounds (tasks.map Task.errand) progress = .ok after := by
  induction rounds generalizing tasks progress with
  | zero =>
    cases tasks with
    | nil =>
      rw [Progress.run] at h
      exact congrArg Except.ok (Option.some.inj h)
    | cons task tasks =>
      rw [Progress.run_cons] at h
      obtain ⟨next, hstep, -⟩ := Option.bind_eq_some_iff.mp h
      have hweight := Task.weight_step hstep
      rw [List.map_cons, totalWeight] at hrounds
      omega
  | succ rounds ih =>
    cases tasks with
    | nil =>
      rw [Progress.run] at h
      exact congrArg Except.ok (Option.some.inj h)
    | cons task tasks =>
      rw [Progress.run_cons] at h
      obtain ⟨⟨more, next⟩, hstep, hrun⟩ := Option.bind_eq_some_iff.mp h
      have hweight := Task.weight_step hstep
      have hmore : totalWeight ((more ++ tasks).map (Task.weight arena)) ≤ rounds := by
        rw [List.map_cons, totalWeight] at hrounds
        rw [List.map_append, totalWeight_append]
        omega
      have hrest := ih hrun hmore
      rw [List.map_append] at hrest
      show (task.errand.step arena progress >>= fun read =>
        run arena rounds (read.1 ++ tasks.map Task.errand) read.2) = _
      rw [step_eq hstep]
      exact hrest

end Errand

/-- The export of a program takes one round for each fact. -/
theorem Errand.run_of_export {ast : Ast} {final : Progress} (h : ast.export? = some final)
    {rounds : Nat} (hrounds : final.facts.size ≤ rounds) :
    run ast.arena rounds [.node ast.root] .start = .ok final := by
  have hrun : Progress.run ast.arena [.node ast.arena.size ast.root] .start = some final := h
  have hsize : final.facts.size = ast.arena.weight ast.arena.size ast.root := by
    rw [Progress.run_node] at hrun
    rw [Progress.size_preorder hrun]
    simp [Progress.start, FactSet.empty, FactSet.size]
  have hwork : totalWeight ([.node ast.arena.size ast.root].map (Task.weight ast.arena))
      ≤ rounds := by
    simp only [List.map_cons, List.map_nil, totalWeight, Task.weight]
    omega
  exact run_eq hrun hwork

theorem Ast.exportFacts_of_export {ast : Ast} {final : Progress} (h : ast.export? = some final)
    {rounds : Nat} (hrounds : final.facts.size ≤ rounds) :
    ast.exportFacts rounds = .ok final.facts := by
  rw [exportFacts, Errand.run_of_export h hrounds]
  rfl

theorem Ast.exportFacts_eq {ast : Ast} {facts : FactSet} (h : ast.facts? = some facts)
    {rounds : Nat} (hrounds : facts.size ≤ rounds) : ast.exportFacts rounds = .ok facts := by
  obtain ⟨final, hfinal, rfl⟩ := Option.map_eq_some_iff.mp h
  exact exportFacts_of_export hfinal hrounds

/-- An export by stack ends, and it ends where the recursion ends: with the same facts in the same
order, and with the same numbers given out. The levels are as many as there are nodes, or more. So
does the export by errands, in one round for each fact or in more. -/
theorem Ast.export_eq_preorder (ast : Ast) (hclosed : ast.arena.Closed ast.root)
    (hacyclic : ast.arena.Acyclic ast.root) :
    ∃ final, ast.export? = some final
      ∧ (∀ levels, ast.arena.size ≤ levels →
        Progress.preorder ast.arena levels ast.root .start = some final
          ∧ Progress.run ast.arena [.node levels ast.root] .start = some final)
      ∧ ∀ rounds, final.facts.size ≤ rounds →
        Errand.run ast.arena rounds [.node ast.root] .start = .ok final
          ∧ ast.exportFacts rounds = .ok final.facts := by
  obtain ⟨final, hfinal, hlevels⟩ := exists_preorder hclosed hacyclic
  exact ⟨final, hfinal, hlevels, fun _ hrounds =>
    ⟨Errand.run_of_export hfinal hrounds, exportFacts_of_export hfinal hrounds⟩⟩

/-- The shared node is exported twice, under one number. -/
theorem Ast.export_eq_preorder_sharing :
    ∃ final, Ast.sharing.export? = some final ∧ final.numbering.issued = 6
      ∧ final.facts.render .bare = "Print('1','2').\nArray('2','3').\nElem('3','4','5').\n"
        ++ "Var('4','x').\nElem('5','4','6').\nVar('4','x').\nEmpty('6').\n"
      ∧ (∀ levels, 3 ≤ levels →
        Progress.preorder Ast.sharing.arena levels 2 .start = some final
          ∧ Progress.run Ast.sharing.arena [.node levels 2] .start = some final)
      ∧ Errand.run Ast.sharing.arena 7 [.node 2] .start = .ok final
      ∧ Ast.sharing.exportFacts 7 = .ok final.facts := by
  obtain ⟨final, hfinal, hlevels, hrounds⟩ := Ast.sharing.export_eq_preorder
    (Ast.descends_sharing.closed Ast.sharing.root_lt) (Ast.descends_sharing.acyclic 2)
  have hread : (Progress.preorder Ast.sharing.arena 3 2 .start).map (fun final =>
      (final.numbering.issued, final.facts.size, final.facts.render .bare))
      = some (6, 7, "Print('1','2').\nArray('2','3').\nElem('3','4','5').\n"
        ++ "Var('4','x').\nElem('5','4','6').\nVar('4','x').\nEmpty('6').\n") := by
    decide +kernel
  have hpreorder : Progress.preorder Ast.sharing.arena 3 2 .start = some final :=
    (hlevels 3 (Nat.le_refl 3)).1
  rw [hpreorder, Option.map_some, Option.some.injEq, Prod.mk.injEq, Prod.mk.injEq] at hread
  obtain ⟨hissued, hsize, htext⟩ := hread
  obtain ⟨hrun, hfacts⟩ := hrounds 7 (Nat.le_of_eq hsize)
  exact ⟨final, hfinal, hissued, htext, hlevels, hrun, hfacts⟩

end ScriptFacts
