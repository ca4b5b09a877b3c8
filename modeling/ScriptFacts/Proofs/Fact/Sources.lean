import ScriptFacts.Proofs.Fact.Identifiers

/-!
# What facts were made for

Every step of an export adds a fact about what its task names, and the legend says of each fact what
it was made for: the node of a handle, or a list cell. In a whole export, handles are all reached
from the root, and every node that is reached is told of, for the facts refer to whatever lies below
it.

* `Task.Steps.written`: a step adds a fact that agrees with the legend, about what the task names.
* `Progress.Traces.written`: so do the steps of a whole trace.
* `Ast.exists_sourced`: every export has a trace, and a legend for it.
* `Ast.Sourced.reaches_iff`: the nodes with numbers are those that are reached.
-/
namespace ScriptFacts

/-! ## Facts and handles -/

/-- The handle of a node entry. -/
def Entity.handle? : Entity → Option Nat
  | node handle => some handle
  | cell _ => none

/-- A fact says what holds of the node of the handle, or of a list cell where there is none. -/
def Legend.Sources (legend : Legend) (arena : Arena) (fact : Fact) (source : Option Nat) : Prop :=
  legend.Holds arena fact ∧ ∃ entity, legend.Names fact.subject entity ∧ entity.handle? = source

theorem Legend.Sources.of_grows {before after : Legend} (h : before <+: after) {arena : Arena}
    {fact : Fact} {source : Option Nat} (hsources : before.Sources arena fact source) :
    after.Sources arena fact source := by
  obtain ⟨hholds, entity, hnames, hsource⟩ := hsources
  exact ⟨hholds.of_grows h, entity, hnames.of_grows h, hsource⟩

/-! ## Steps -/

/-- A step adds a fact about what the task names, and leaves tasks whose cells have their items. -/
theorem Task.Steps.written {arena : Arena} {before : Legend} {task : Task} {tasks : List Task}
    {progress result : Progress} (h : task.Steps arena progress tasks result)
    (hagrees : before.Agrees progress.numbering) (hlisted : task.Listed before) :
    ∃ (after : Legend) (index : Nat) (entity : Entity),
      Legend.Written arena before progress after result (· = index)
        ∧ after[index]? = some entity ∧ entity.handle? = task.handle?
        ∧ ∀ next ∈ tasks, next.Listed after := by
  cases h with
  | @node levels handle node hnode =>
    obtain ⟨after, index, hwritten, -, hindex, htasks, -⟩ :=
      Progress.written_addNode levels hnode hagrees
    exact ⟨after, index, .node handle, hwritten, hindex, rfl, htasks⟩
  | done =>
    obtain ⟨index, rfl, hindex⟩ := hlisted
    exact ⟨before, index, .cell [], Progress.written_addEnd hagrees hindex, hindex, rfl, by simp⟩
  | @item levels cell item items =>
    obtain ⟨index, rfl, hindex⟩ := hlisted
    obtain ⟨after, next, hwritten, hnumber, hnext, -⟩ := Progress.written_addItem hagrees hindex
    refine ⟨after, index, .cell (item :: items), hwritten,
      Legend.getElem?_of_grows hwritten.grows hindex, rfl, ?_⟩
    exact List.forall_mem_cons.mpr ⟨trivial, List.forall_mem_singleton.mpr ⟨next, hnumber, hnext⟩⟩

namespace Progress.Traces

variable {arena : Arena} {tasks : List Task} {sources : List (Option Nat)}
  {progress final : Progress}

/-- The facts of a trace agree with the legend, each about what it was made for. -/
theorem written (h : Traces arena tasks progress sources final) {before : Legend}
    (hagrees : before.Agrees progress.numbering) (hlisted : ∀ task ∈ tasks, task.Listed before) :
    ∃ (after : Legend) (facts : List Fact), before <+: after ∧ after.Agrees final.numbering
      ∧ final.facts.toList = progress.facts.toList ++ facts
      ∧ List.Forall₂ (after.Sources arena) facts sources := by
  induction h generalizing before with
  | @done progress => exact ⟨before, [], List.prefix_rfl, hagrees, by simp, .nil⟩
  | @step task tasks more sources progress between final hstep _ ih =>
    obtain ⟨htask, htasks⟩ := List.forall_mem_cons.mp hlisted
    obtain ⟨middle, index, entity, hwritten, hindex, hentity, hmore⟩ :=
      hstep.written hagrees htask
    have hnext : ∀ task ∈ more ++ tasks, task.Listed middle :=
      List.forall_mem_append.mpr
        ⟨hmore, fun task hmem => (htasks task hmem).of_grows hwritten.grows⟩
    obtain ⟨after, facts, hgrows, hafter, hfacts, hsources⟩ := ih hwritten.agrees hnext
    -- The step added one fact, so it is the fact that is told of the entry.
    obtain ⟨fact, hpush⟩ := hstep.exists_fact
    obtain ⟨added, hadded, hholds, htold⟩ := hwritten.facts
    rw [hpush, FactSet.toList_push] at hadded
    obtain rfl := List.append_cancel_left hadded
    obtain ⟨fact', hmem, hsubject⟩ := htold index rfl
    obtain rfl := List.mem_singleton.mp hmem
    have hsource : middle.Sources arena fact' task.handle? :=
      ⟨hholds fact' hmem, entity, ⟨index, hindex, hsubject⟩, hentity⟩
    refine ⟨after, fact' :: facts, hwritten.grows.trans hgrows, hafter, ?_,
      .cons (hsource.of_grows hgrows) hsources⟩
    rw [hfacts, hpush, FactSet.toList_push, List.append_assoc, List.singleton_append]

/-- Facts are made for handles that are reached. -/
theorem reaches {root : Nat} (h : Traces arena tasks progress sources final)
    (hreach : ∀ task ∈ tasks, ∀ handle ∈ task.handles, arena.Reaches root handle) :
    ∀ handle, some handle ∈ sources → arena.Reaches root handle := by
  induction h with
  | done => simp
  | @step task tasks more sources progress between final hstep _ ih =>
    obtain ⟨htask, htasks⟩ := List.forall_mem_cons.mp hreach
    have hmore : ∀ task ∈ more ++ tasks, ∀ handle ∈ task.handles, arena.Reaches root handle :=
      List.forall_mem_append.mpr ⟨hstep.reaches htask, htasks⟩
    intro handle hmem
    rcases List.mem_cons.mp hmem with hsame | hmem
    · cases task with
      | node levels other =>
        obtain rfl : handle = other := Option.some.inj hsame
        exact htask handle (List.mem_singleton_self handle)
      | list levels cell items => simp [Task.handle?] at hsame
    · exact ih hmore handle hmem

end Progress.Traces

/-! ## Whole exports -/

/-- What the legend of an export says of its facts and of the handles for which they were made. -/
structure Ast.Sourced (ast : Ast) (final : Progress) (legend : Legend)
    (sources : List (Option Nat)) : Prop where
  agrees : legend.Agrees final.numbering
  root : legend[0]? = some (.node ast.root)
  facts : List.Forall₂ (legend.Sources ast.arena) final.facts.toList sources
  reaches : ∀ handle, some handle ∈ sources → ast.arena.Reaches ast.root handle
  told : ∀ index < legend.length, ∃ fact ∈ final.facts.toList, fact.subject = (index + 1).repr

/-- Every export has a trace, and a legend for it. -/
theorem Ast.exists_sourced {ast : Ast} {final : Progress} (h : ast.export? = some final) :
    ∃ (sources : List (Option Nat)) (legend : Legend),
      Progress.Traces ast.arena [.node ast.arena.size ast.root] .start sources final
        ∧ ast.Sourced final legend sources := by
  obtain ⟨sources, htraces⟩ := Progress.exists_traces h
  obtain ⟨other, hother, -, -, htold⟩ := Ast.exists_legend h
  obtain ⟨-, -, -, -, hroot⟩ := Ast.exists_first h
  obtain ⟨legend, facts, -, hagrees, hfacts, hsources⟩ :=
    htraces.written Legend.Agrees.fresh (List.forall_mem_singleton.mpr trivial)
  obtain rfl : final.facts.toList = facts := hfacts
  obtain ⟨index, hindex, hentry⟩ := (hagrees.known _ _).mp hroot
  obtain rfl : index = 0 := (Nat.succ.inj hindex).symm
  have hreach : ∀ task ∈ [Task.node ast.arena.size ast.root], ∀ handle ∈ task.handles,
      ast.arena.Reaches ast.root handle := by
    simpa [Task.handles] using Arena.Reaches.refl ast.root
  refine ⟨sources, legend, htraces, hagrees, hentry, hsources, htraces.reaches hreach, ?_⟩
  rwa [← hagrees.issued, hother.issued]

namespace Ast.Sourced

variable {ast : Ast} {final : Progress} {legend : Legend} {sources : List (Option Nat)}

theorem holds (h : ast.Sourced final legend sources) :
    ∀ fact ∈ final.facts.toList, legend.Holds ast.arena fact := by
  intro fact hfact
  obtain ⟨-, -, hholds, -⟩ := exists_of_forall₂ h.facts hfact
  exact hholds

theorem names_node (h : ast.Sourced final legend sources) {fact : Fact} {handle : Nat}
    (hfact : (fact, some handle) ∈ final.facts.toList.zip sources) :
    legend.Names fact.subject (.node handle) := by
  obtain ⟨-, entity, hnames, hsource⟩ := List.forall₂_zip h.facts hfact
  cases entity with
  | node other =>
    obtain rfl := Option.some.inj hsource
    exact hnames
  | cell items => simp [Entity.handle?] at hsource

/-! ### Which nodes have numbers -/

/-- Whatever an entry refers to has an entry. -/
theorem exists_below (h : ast.Sourced final legend sources) {index : Nat} {entity other : Entity}
    (hindex : legend[index]? = some entity) (hother : other ∈ entity.below ast.arena) :
    ∃ below : Nat, legend[below]? = some other := by
  obtain ⟨fact, hfact, hsubject⟩ := h.told index (List.getElem?_eq_some_iff.mp hindex).1
  obtain ⟨-, hrefers⟩ := (h.holds fact hfact).refers ⟨index, hindex, hsubject⟩
  obtain ⟨reference, -, -, below, hbelow, -⟩ := exists_of_forall₂ hrefers.flip hother
  exact ⟨below, hbelow⟩

theorem exists_handle (h : ast.Sourced final legend sources) {index handle : Nat} {entity : Entity}
    (hindex : legend[index]? = some entity) (hhandle : handle ∈ entity.handles) :
    ∃ below : Nat, legend[below]? = some (.node handle) := by
  cases entity with
  | node other =>
    obtain rfl := List.mem_singleton.mp hhandle
    exact ⟨index, hindex⟩
  | cell items =>
    induction items generalizing index with
    | nil => simp [Entity.handles] at hhandle
    | cons item items ih =>
      rcases List.mem_cons.mp hhandle with rfl | hhandle
      · exact h.exists_below hindex (by simp [Entity.below])
      · have hmore : Entity.cell items ∈ (Entity.cell (item :: items)).below ast.arena := by
          simp [Entity.below]
        obtain ⟨next, hnext⟩ := h.exists_below hindex hmore
        exact ih hnext hhandle

/-- What is reached from a node with a number has a number. -/
theorem exists_entry (h : ast.Sourced final legend sources) {above handle : Nat}
    (hreaches : ast.arena.Reaches above handle) {index : Nat}
    (hindex : legend[index]? = some (.node above)) :
    ∃ below : Nat, legend[below]? = some (.node handle) := by
  induction hreaches generalizing index with
  | refl => exact ⟨index, hindex⟩
  | child hchild _ ih =>
    obtain ⟨node, hnode, hmem⟩ := hchild
    rw [← Entity.handles_below_node hnode] at hmem
    obtain ⟨entity, hentity, hchild⟩ := List.mem_flatMap.mp hmem
    obtain ⟨between, hbetween⟩ := h.exists_below hindex hentity
    obtain ⟨below, hbelow⟩ := h.exists_handle hbetween hchild
    exact ih hbelow

/-- The nodes with numbers are those that are reached from the root. -/
theorem reaches_iff (h : ast.Sourced final legend sources) {handle : Nat} :
    ast.arena.Reaches ast.root handle
      ↔ ∃ index : Nat, legend[index]? = some (.node handle) := by
  constructor
  · intro hreaches
    exact h.exists_entry hreaches h.root
  · rintro ⟨index, hindex⟩
    obtain ⟨fact, hfact, hsubject⟩ := h.told index (List.getElem?_eq_some_iff.mp hindex).1
    obtain ⟨source, hsource, -, entity, hnames, hentity⟩ := exists_of_forall₂ h.facts hfact
    obtain rfl := hnames.unique ⟨index, hindex, hsubject⟩
    subst hentity
    exact h.reaches handle hsource

end Ast.Sourced

end ScriptFacts
