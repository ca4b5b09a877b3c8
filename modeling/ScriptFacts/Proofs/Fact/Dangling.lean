import ScriptFacts.Proofs.Arena.Display
import ScriptFacts.Proofs.Fact.Exporter

/-!
# Writing and exporting fail on the same programs

A program is written by recursion and exported by a stack of errands, but both look up the handles
that are reached in the order of a visit. The errands that a node leaves behind visit its children,
and those that a list leaves behind visit its items; that facts have been added and numbers given
out by then makes no difference. So without circles both come through if all handles that are
reached lead to nodes, and otherwise both break off at the same handle.

* `Task.visit_step`: what a step leaves to be done is to be visited still.
* `Errand.run_of_visit`: errands break off where the visit does.
* `Ast.breaks_off_iff`: a program is written, and exported, exactly if no handle leads nowhere.
-/
namespace ScriptFacts

/-! ## The visits of tasks -/

/-- The visit that a task pays. -/
def Task.visit (arena : Arena) : Task → Except Interruption Unit
  | node levels handle => arena.visit levels handle
  | list levels _ items => visitAll (arena.visit levels) items

variable {arena : Arena}

theorem Progress.visitAll_enter (levels : Nat) (fields : List (Field Nat))
    (numbering : Numbering) :
    visitAll (Task.visit arena) (enter levels fields numbering).1.tasks
      = visitAll (arena.visit levels) (fields.flatMap Field.handles) := by
  induction fields generalizing numbering with
  | nil => rfl
  | cons field fields ih =>
    rw [List.flatMap_cons, visitAll_append]
    cases field with
    | digits written | text written => exact ih numbering
    | child handle =>
      rw [Field.handles, visitAll_singleton, ← ih (numbering.node handle).2]
      rfl
    | children handles =>
      rw [Field.handles, ← ih numbering.cell.2]
      rfl

/-- What a step leaves to be done is what its task still has to visit. -/
theorem Task.visit_step {task : Task} {progress after : Progress} {tasks : List Task}
    (h : task.step arena progress = some (tasks, after)) :
    visitAll (Task.visit arena) tasks = task.visit arena := by
  cases Task.step_eq_some_iff.mp h with
  | @node levels handle node hnode =>
    rw [visit, Arena.visit_of_get? hnode]
    exact Progress.visitAll_enter levels node.fields (progress.numbering.node handle).2
  | done => rfl
  | @item levels cell item items =>
    show (arena.visit levels item >>= fun _ => visitAll (Task.visit arena) [.list _ _ items]) = _
    rw [visitAll_singleton]
    rfl

/-- A task takes no step only where its visit breaks off. -/
theorem Task.visit_of_step_eq_none {task : Task} {progress : Progress}
    (h : task.step arena progress = none) :
    task.visit arena = .error .outOfLevels ∨ ∃ handle, task.errand = .node handle
      ∧ arena.get? handle = none ∧ task.visit arena = .error (.noNode handle) := by
  match task with
  | .node 0 _ => exact .inl rfl
  | .node (levels + 1) handle =>
    have hnode : arena.get? handle = none := Option.map_eq_none_iff.mp h
    exact .inr ⟨handle, rfl, hnode, Arena.visit_of_get?_eq_none hnode levels⟩
  | .list _ _ [] => cases h
  | .list _ _ (_ :: _) => cases h

theorem Task.weight_pos (arena : Arena) (task : Task) : 0 < task.weight arena := by
  match task with
  | .node 0 _ => exact Nat.one_pos
  | .node (levels + 1) handle =>
    cases hnode : arena.get? handle with
    | none => simp [weight, Arena.weight, hnode]
    | some node =>
      rw [weight, Arena.weight_succ hnode]
      omega
  | .list levels cell items =>
    rw [weight]
    omega

/-! ## Errands -/

/-- Errands break off where the visit of their tasks does, if there are rounds enough for their
work. -/
theorem Errand.run_of_visit {tasks : List Task} {progress : Progress} {rounds bad : Nat}
    (h : visitAll (Task.visit arena) tasks = .error (.noNode bad))
    (hrounds : totalWeight (tasks.map (Task.weight arena)) ≤ rounds) :
    run arena rounds (tasks.map Task.errand) progress = .error (.noNode bad) := by
  induction rounds generalizing tasks progress with
  | zero =>
    cases tasks with
    | nil => cases h
    | cons task tasks =>
      have hpos := task.weight_pos arena
      rw [List.map_cons, totalWeight] at hrounds
      omega
  | succ rounds ih =>
    cases tasks with
    | nil => cases h
    | cons task tasks =>
      rw [visitAll_cons] at h
      cases hstep : task.step arena progress with
      | none =>
        rcases Task.visit_of_step_eq_none hstep with hout | ⟨handle, herrand, hnode, hvisit⟩
        · rw [hout] at h
          cases h
        · rw [hvisit] at h
          cases h
          rw [List.map_cons, herrand, run, step, hnode]
          rfl
      | some next =>
        obtain ⟨more, next⟩ := next
        have hweight := Task.weight_step hstep
        have hmore : totalWeight ((more ++ tasks).map (Task.weight arena)) ≤ rounds := by
          rw [List.map_cons, totalWeight] at hrounds
          rw [List.map_append, totalWeight_append]
          omega
        have hvisit : visitAll (Task.visit arena) (more ++ tasks) = .error (.noNode bad) := by
          rw [visitAll_append, Task.visit_step hstep]
          exact h
        have hrest : run arena rounds ((more ++ tasks).map Task.errand) next
            = .error (.noNode bad) := ih hvisit hmore
        rw [List.map_append] at hrest
        show (task.errand.step arena progress >>= fun read =>
          run arena rounds (read.1 ++ tasks.map Task.errand) read.2) = _
        rw [step_eq hstep]
        exact hrest

/-! ## Whole programs -/

/-- What comes of a walk when it is given enough to go on with, and whatever more. -/
def ComesTo {α : Type} (walk : Nat → α) (result : α) : Prop :=
  ∃ enough, ∀ given, enough ≤ given → walk given = result

theorem ComesTo.unique {α : Type} {walk : Nat → α} {result other : α} (h : ComesTo walk result)
    (hother : ComesTo walk other) : result = other := by
  obtain ⟨enough, hwalk⟩ := h
  obtain ⟨enough', hwalk'⟩ := hother
  rw [← hwalk (enough + enough') (Nat.le_add_right _ _),
    hwalk' (enough + enough') (Nat.le_add_left _ _)]

/-- A walk that comes to a value wherever there is one, and otherwise breaks off, breaks off exactly
where there is none. -/
theorem ComesTo.error_iff {α ε : Type} {walk : Nat → Except ε α} {value? : Option α}
    {fault : Nat → ε} {missing : Prop}
    (hcomes : ∀ value, value? = some value → ComesTo walk (.ok value))
    (hvalue : ¬ missing → ∃ value, value? = some value)
    (hbreaks : missing → ∃ bad, ComesTo walk (.error (fault bad))) :
    ((∃ bad, ComesTo walk (.error (fault bad))) ↔ missing)
      ∧ ((∃ value, value? = some value ∧ ComesTo walk (.ok value)) ↔ ¬ missing) := by
  by_cases hmissing : missing
  · obtain ⟨bad, hbad⟩ := hbreaks hmissing
    refine ⟨iff_of_true ⟨bad, hbad⟩ hmissing, iff_of_false ?_ (not_not_intro hmissing)⟩
    rintro ⟨value, -, hok⟩
    cases hok.unique hbad
  · obtain ⟨value, hsome⟩ := hvalue hmissing
    refine ⟨iff_of_false ?_ hmissing, iff_of_true ⟨value, hsome, hcomes value hsome⟩ hmissing⟩
    rintro ⟨bad, hbad⟩
    cases (hcomes value hsome).unique hbad

namespace Ast

variable {ast : Ast}

/-- A tree that has a written form is written. -/
theorem display_comesTo {handle : Nat} {shown : String} (h : ast.render? handle = some shown) :
    ComesTo (ast.display · handle) (.ok shown) := by
  obtain ⟨term, hterm, rfl⟩ := Option.map_eq_some_iff.mp h
  refine ⟨ast.arena.size, fun levels hlevels => ?_⟩
  have hwrite := ast.arena.toOption_write levels handle ""
  rw [Arena.termWithin?_mono hlevels hterm] at hwrite
  show ast.arena.write levels handle "" = _
  cases hresult : ast.arena.write levels handle "" with
  | error interruption => simp [hresult, Except.toOption] at hwrite
  | ok shown => simpa [hresult, Except.toOption] using hwrite

/-- A program that has facts is exported. -/
theorem export_comesTo {set : FactSet} (h : ast.facts? = some set) :
    ComesTo (ast.exportFacts ·) (.ok set) :=
  ⟨set.size, fun _ => exportFacts_eq h⟩

theorem exists_render {handle : Nat} (hclosed : ast.arena.Closed handle)
    (hacyclic : ast.arena.Acyclic handle) : ∃ shown, ast.render? handle = some shown := by
  obtain ⟨term, hterm⟩ := (Arena.fits_of_acyclic hclosed hacyclic).exists_term
  exact ⟨term.render, Option.map_eq_some_iff.mpr ⟨term, hterm, rfl⟩⟩

theorem exists_facts (hclosed : ast.arena.Closed ast.root)
    (hacyclic : ast.arena.Acyclic ast.root) : ∃ set, ast.facts? = some set := by
  obtain ⟨final, hfinal⟩ := exists_export hclosed hacyclic
  exact ⟨final.facts, Option.map_eq_some_iff.mpr ⟨final, hfinal, rfl⟩⟩

/-- Writing breaks off where the visit does. -/
theorem display_breaks_off {handle bad : Nat}
    (hvisit : ∀ levels, ast.arena.size < levels →
      ast.arena.visit levels handle = .error (.noNode bad)) :
    ComesTo (ast.display · handle) (.error (.noNode bad)) := by
  refine ⟨ast.arena.size + 1, fun levels hlevels => ?_⟩
  have hfollows := ast.arena.write_visit levels handle ""
  rw [hvisit levels hlevels] at hfollows
  show ast.arena.write levels handle "" = _
  cases hresult : ast.arena.write levels handle "" with
  | error interruption => simpa [hresult, Except.map] using hfollows
  | ok shown => simp [hresult, Except.map] at hfollows

/-- So does the export, with rounds for the work of as many levels as there are nodes, and one. -/
theorem export_breaks_off {bad : Nat}
    (hvisit : ∀ levels, ast.arena.size < levels →
      ast.arena.visit levels ast.root = .error (.noNode bad)) :
    ComesTo (ast.exportFacts ·) (.error (.noNode bad)) := by
  let task : Task := .node (ast.arena.size + 1) ast.root
  refine ⟨totalWeight ([task].map (Task.weight ast.arena)), fun rounds hrounds => ?_⟩
  have htask : visitAll (Task.visit ast.arena) [task] = .error (.noNode bad) := by
    rw [visitAll_singleton]
    exact hvisit _ (Nat.lt_succ_self _)
  have hrun : Errand.run ast.arena rounds ([task].map Task.errand) .start
      = .error (.noNode bad) := Errand.run_of_visit htask hrounds
  show (Errand.run ast.arena rounds ([task].map Task.errand) .start
    >>= fun progress => .ok progress.facts) = _
  rw [hrun]
  rfl

theorem display_error_iff {handle : Nat} (hacyclic : ast.arena.Acyclic handle) :
    ((∃ bad, ComesTo (ast.display · handle) (.error (.noNode bad)))
        ↔ ∃ bad, ast.arena.Reaches handle bad ∧ ast.arena.size ≤ bad)
      ∧ ((∃ shown, ast.render? handle = some shown ∧ ComesTo (ast.display · handle) (.ok shown))
        ↔ ¬ ∃ bad, ast.arena.Reaches handle bad ∧ ast.arena.size ≤ bad) := by
  apply ComesTo.error_iff (fun _ => display_comesTo)
  · intro hthere
    exact exists_render (Arena.closed_iff.mpr hthere) hacyclic
  · intro hmissing
    rcases Arena.visit_of_acyclic hacyclic with ⟨hclosed, -⟩ | ⟨bad, -, -, hvisit⟩
    · exact absurd hmissing (Arena.closed_iff.mp hclosed)
    · exact ⟨bad, display_breaks_off hvisit⟩

theorem export_error_iff (hacyclic : ast.arena.Acyclic ast.root) :
    ((∃ bad, ComesTo (ast.exportFacts ·) (.error (.noNode bad)))
        ↔ ∃ bad, ast.arena.Reaches ast.root bad ∧ ast.arena.size ≤ bad)
      ∧ ((∃ set, ast.facts? = some set ∧ ComesTo (ast.exportFacts ·) (.ok set))
        ↔ ¬ ∃ bad, ast.arena.Reaches ast.root bad ∧ ast.arena.size ≤ bad) := by
  apply ComesTo.error_iff (fun _ => export_comesTo)
  · intro hthere
    exact exists_facts (Arena.closed_iff.mpr hthere) hacyclic
  · intro hmissing
    rcases Arena.visit_of_acyclic hacyclic with ⟨hclosed, -⟩ | ⟨bad, -, -, hvisit⟩
    · exact absurd hmissing (Arena.closed_iff.mp hclosed)
    · exact ⟨bad, export_breaks_off hvisit⟩

/-- Writing the root and exporting break off at the same handle. -/
theorem display_breaks_iff_export_breaks (hacyclic : ast.arena.Acyclic ast.root) (bad : Nat) :
    ComesTo (ast.display · ast.root) (.error (.noNode bad))
      ↔ ComesTo (ast.exportFacts ·) (.error (.noNode bad)) := by
  rcases Arena.visit_of_acyclic hacyclic with ⟨hclosed, -⟩ | ⟨other, -, -, hvisit⟩
  · obtain ⟨shown, hshown⟩ := exists_render hclosed hacyclic
    obtain ⟨set, hset⟩ := exists_facts hclosed hacyclic
    constructor
    · intro h
      cases h.unique (display_comesTo hshown)
    · intro h
      cases h.unique (export_comesTo hset)
  · constructor
    · intro h
      cases h.unique (display_breaks_off hvisit)
      exact export_breaks_off hvisit
    · intro h
      cases h.unique (export_breaks_off hvisit)
      exact display_breaks_off hvisit

/-- Without circles below a handle, writing breaks off exactly if a handle without a node is reached
from there, and comes to the written form otherwise; without circles below the root, so does the
export, which comes to the facts. Both come through for the same programs, and where they break off,
they do at the same handle. -/
theorem breaks_off_iff (ast : Ast) :
    (∀ handle, ast.arena.Acyclic handle →
      ((∃ bad, ComesTo (ast.display · handle) (.error (.noNode bad)))
          ↔ ∃ bad, ast.arena.Reaches handle bad ∧ ast.arena.size ≤ bad)
        ∧ ((∃ shown, ast.render? handle = some shown ∧ ComesTo (ast.display · handle) (.ok shown))
          ↔ ¬ ∃ bad, ast.arena.Reaches handle bad ∧ ast.arena.size ≤ bad))
      ∧ (ast.arena.Acyclic ast.root →
        ((∃ bad, ComesTo (ast.exportFacts ·) (.error (.noNode bad)))
            ↔ ∃ bad, ast.arena.Reaches ast.root bad ∧ ast.arena.size ≤ bad)
          ∧ ((∃ set, ast.facts? = some set ∧ ComesTo (ast.exportFacts ·) (.ok set))
            ↔ ¬ ∃ bad, ast.arena.Reaches ast.root bad ∧ ast.arena.size ≤ bad)
          ∧ ((∃ shown, ast.render? ast.root = some shown) ↔ ∃ set, ast.facts? = some set)
          ∧ ∀ bad, ComesTo (ast.display · ast.root) (.error (.noNode bad))
            ↔ ComesTo (ast.exportFacts ·) (.error (.noNode bad))) := by
  refine ⟨fun handle hacyclic => display_error_iff hacyclic, fun hacyclic => ?_⟩
  obtain ⟨-, hshown⟩ := display_error_iff hacyclic
  obtain ⟨hbreaks, hfacts⟩ := export_error_iff hacyclic
  refine ⟨hbreaks, hfacts, ⟨?_, ?_⟩, display_breaks_iff_export_breaks hacyclic⟩
  · rintro ⟨shown, hsome⟩
    obtain ⟨set, hset, -⟩ := hfacts.mpr (hshown.mp ⟨shown, hsome, display_comesTo hsome⟩)
    exact ⟨set, hset⟩
  · rintro ⟨set, hsome⟩
    obtain ⟨shown, hshown, -⟩ := hshown.mpr (hfacts.mp ⟨set, hsome, export_comesTo hsome⟩)
    exact ⟨shown, hshown⟩

/-- The program `print [x, x, ..];` with one node for both names and a third item that is not
there. -/
def dangling : Ast := ⟨⟨#[.var "x", .array [0, 0, 7], .print 1]⟩, 2, by decide⟩

/-- From the root the missing item is reached, behind names that are exported without it; from the
names it is not. -/
theorem breaks_off_iff_dangling :
    (∃ bad, ComesTo (dangling.display · 2) (.error (.noNode bad))
        ∧ ComesTo (dangling.exportFacts ·) (.error (.noNode bad)))
      ∧ dangling.facts? = none
      ∧ ∃ shown, dangling.render? 0 = some shown ∧ ComesTo (dangling.display · 0) (.ok shown) := by
  have hacyclic : ∀ handle, dangling.arena.Acyclic handle := Arena.acyclic_of_nodes (by decide)
  obtain ⟨hdisplay, hexport⟩ := breaks_off_iff dangling
  obtain ⟨-, hfacts, -, hsame⟩ := hexport (hacyclic 2)
  have hmissing : ∃ bad, dangling.arena.Reaches 2 bad ∧ dangling.arena.size ≤ bad := by
    have hitem : dangling.arena.Child 1 7 := ⟨.array [0, 0, 7], rfl, by decide⟩
    have hvalue : dangling.arena.Child 2 1 := ⟨.print 1, rfl, by decide⟩
    exact ⟨7, .child hvalue (.child hitem (.refl 7)), by decide⟩
  refine ⟨?_, ?_, ?_⟩
  · obtain ⟨bad, hbad⟩ := (hdisplay 2 (hacyclic 2)).1.mpr hmissing
    exact ⟨bad, hbad, (hsame bad).mp hbad⟩
  · cases hset : dangling.facts? with
    | none => rfl
    | some set => exact absurd hmissing (hfacts.mp ⟨set, hset, export_comesTo hset⟩)
  · apply (hdisplay 0 (hacyclic 0)).2.mpr
    rintro ⟨bad, hreach, hbad⟩
    cases hreach with
    | refl => exact absurd hbad (by decide)
    | child hchild _ =>
      obtain ⟨node, hnode, hmem⟩ := hchild
      obtain rfl : Node.var "x" = node := Option.some.inj hnode
      cases hmem

end Ast

end ScriptFacts
