import ScriptFacts.Proofs.Fact.Recursion
import Std.Data.TreeMap.Lemmas

/-!
# What the identifiers stand for

Every identifier of an export stands for a node, or for a cell with the items that the list has
from there on. The legend lists what they stand for, in the order in which they were numbered. An
export only adds to it, so a fact that agrees with the legend when it is written still does at the
end.

* `Progress.written_preorder`: what is exported below a node agrees with the legend and says
  something of each new entry.
* `Ast.exists_legend`: so it is for a whole export, where every entry is new.
-/
namespace ScriptFacts

/-- What an identifier stands for. -/
inductive Entity
  | node (handle : Nat)
  /-- A list cell with the items from there on. -/
  | cell (items : List Nat)
deriving DecidableEq

/-- What the numbers 1, 2, 3 and so on stand for. -/
abbrev Legend := List Entity

namespace Legend

/-! ## Identifiers -/

/-- The identifier stands for the entity. -/
def Names (legend : Legend) (id : String) (entity : Entity) : Prop :=
  ∃ index, legend[index]? = some entity ∧ id = (index + 1).repr

/-- Numbers are told apart by their digits. -/
theorem repr_injective {number other : Nat} (h : number.repr = other.repr) : number = other := by
  have hdigits := congrArg (fun text : String => Nat.ofDigitChars 10 text.toList 0) h
  simpa using hdigits

theorem getElem?_snoc {legend : Legend} {added entity : Entity} {index : Nat} :
    (legend ++ [added])[index]? = some entity
      ↔ legend[index]? = some entity ∨ index = legend.length ∧ added = entity := by
  rcases Nat.lt_trichotomy index legend.length with hlt | rfl | hgt
  · rw [List.getElem?_append_left hlt]
    simp [Nat.ne_of_lt hlt]
  · simp
  · rw [List.getElem?_append_right (Nat.le_of_lt hgt)]
    have hout : legend[index]? = none := List.getElem?_eq_none (Nat.le_of_lt hgt)
    have hsub : index - legend.length ≠ 0 := by omega
    have hne : index ≠ legend.length := by omega
    simp [hout, hne, hsub]

theorem getElem?_of_grows {before after : Legend} (h : before <+: after) {index : Nat}
    {entity : Entity} (hindex : before[index]? = some entity) : after[index]? = some entity := by
  obtain ⟨more, rfl⟩ := h
  have hlt : index < before.length := (List.getElem?_eq_some_iff.mp hindex).1
  rw [List.getElem?_append_left hlt, hindex]

theorem Names.of_grows {before after : Legend} (h : before <+: after) {id : String}
    {entity : Entity} (hnames : before.Names id entity) : after.Names id entity := by
  obtain ⟨index, hindex, rfl⟩ := hnames
  exact ⟨index, getElem?_of_grows h hindex, rfl⟩

/-- An identifier stands for one thing. -/
theorem Names.unique {legend : Legend} {id : String} {entity other : Entity}
    (h : legend.Names id entity) (hother : legend.Names id other) : entity = other := by
  obtain ⟨index, hindex, rfl⟩ := h
  obtain ⟨index', hindex', hrepr⟩ := hother
  have hsame : index + 1 = index' + 1 := repr_injective hrepr
  obtain rfl : index = index' := by omega
  exact Option.some.inj (hindex.symm.trans hindex')

/-! ## New entries -/

/-- The entries that `after` adds to `before`. -/
def Adds (before after : Legend) (index : Nat) : Prop :=
  before.length ≤ index ∧ index < after.length

theorem not_adds_self {legend : Legend} {index : Nat} : ¬ legend.Adds legend index := by
  unfold Adds
  omega

theorem adds_snoc {legend : Legend} {entity : Entity} {index : Nat} :
    legend.Adds (legend ++ [entity]) index ↔ index = legend.length := by
  unfold Adds
  rw [List.length_append, List.length_singleton]
  omega

/-- An entry that is added on the way from one legend to another is added before or after any
third. -/
theorem Adds.split {before after : Legend} {index : Nat} (h : before.Adds after index)
    (between : Legend) : before.Adds between index ∨ between.Adds after index := by
  obtain ⟨hlow, hhigh⟩ := h
  by_cases hlt : index < between.length
  · exact .inl ⟨hlow, hlt⟩
  · exact .inr ⟨Nat.le_of_not_lt hlt, hhigh⟩

/-! ## Numberings -/

/-- The numbering gave out the numbers of the legend, and knows the nodes among them. -/
structure Agrees (legend : Legend) (numbering : Numbering) : Prop where
  issued : numbering.issued = legend.length
  known : ∀ handle number, numbering.known[handle]? = some number ↔
    ∃ index, number = index + 1 ∧ legend[index]? = some (.node handle)

theorem Agrees.fresh : Agrees [] .fresh where
  issued := rfl
  known := by simp [Numbering.fresh]

/-- A node has its entry, which is new or was there. -/
theorem Agrees.node {legend : Legend} {numbering : Numbering} (h : legend.Agrees numbering)
    (handle : Nat) :
    ∃ (after : Legend) (index : Nat), legend <+: after ∧ after.Agrees (numbering.node handle).2
      ∧ (numbering.node handle).1 = index + 1 ∧ after[index]? = some (.node handle)
      ∧ index ≤ legend.length ∧ ∀ other, legend.Adds after other → other = index := by
  unfold Numbering.node
  split
  · next number hknown =>
    obtain ⟨index, rfl, hindex⟩ := (h.known handle number).mp hknown
    have hlt : index < legend.length := (List.getElem?_eq_some_iff.mp hindex).1
    exact ⟨legend, index, List.prefix_rfl, h, rfl, hindex, Nat.le_of_lt hlt,
      fun other hadds => absurd hadds not_adds_self⟩
  · next hnone =>
    refine ⟨legend ++ [Entity.node handle], legend.length, List.prefix_append _ _, ⟨?_, ?_⟩, ?_⟩
    · simp [h.issued]
    · intro other number
      rw [Std.TreeMap.getElem?_insert]
      by_cases hother : handle = other
      · subst hother
        have habsent : ∀ index : Nat, legend[index]? ≠ some (.node handle) := by
          intro index hindex
          have hknown := (h.known handle (index + 1)).mpr ⟨index, rfl, hindex⟩
          rw [hnone] at hknown
          simp at hknown
        simp only [getElem?_snoc, habsent, h.issued, false_or, and_true, exists_eq_right]
        simp [eq_comm]
      · have hcompare : compare handle other ≠ .eq := by simpa using hother
        rw [if_neg hcompare, h.known]
        simp [getElem?_snoc, hother]
    · exact ⟨by simp [h.issued], by simp, Nat.le_refl _, fun other => adds_snoc.mp⟩

/-- A node has one entry. -/
theorem Agrees.node_unique {legend : Legend} {numbering : Numbering} (h : legend.Agrees numbering)
    {handle index other : Nat} (hindex : legend[index]? = some (.node handle))
    (hother : legend[other]? = some (.node handle)) : index = other := by
  have hknown := (h.known handle (index + 1)).mpr ⟨index, rfl, hindex⟩
  have hknown' := (h.known handle (other + 1)).mpr ⟨other, rfl, hother⟩
  have hsame := Option.some.inj (hknown.symm.trans hknown')
  omega

/-- A cell has a new entry. -/
theorem Agrees.cell {legend : Legend} {numbering : Numbering} (h : legend.Agrees numbering)
    (items : List Nat) :
    Agrees (legend ++ [.cell items]) numbering.cell.2 ∧ numbering.cell.1 = legend.length + 1 := by
  refine ⟨⟨by simp [Numbering.cell, h.issued], fun handle number => ?_⟩,
    by simp [Numbering.cell, h.issued]⟩
  simp [Numbering.cell, h.known, getElem?_snoc]

/-! ## Facts -/

/-- An argument says what a field holds. -/
def ArgFor (legend : Legend) : Field Nat → String → Prop
  | .digits text, arg | .text text, arg => arg = text
  | .child handle, arg => legend.Names arg (.node handle)
  | .children handles, arg => legend.Names arg (.cell handles)

/-- What a fact about an entity says after the subject. -/
inductive Tells (legend : Legend) (arena : Arena) : Entity → Relation → List String → Prop
  | node {handle node args} (hnode : arena.get? handle = some node)
    (hargs : List.Forall₂ legend.ArgFor node.fields args) :
    Tells legend arena (.node handle) (.node node.kind) args
  | empty : Tells legend arena (.cell []) .empty []
  | elem {item items first next} (hfirst : legend.Names first (.node item))
    (hnext : legend.Names next (.cell items)) :
    Tells legend arena (.cell (item :: items)) .elem [first, next]

/-- A fact says of its subject what holds of the entity that the subject stands for. -/
def Holds (legend : Legend) (arena : Arena) (fact : Fact) : Prop :=
  ∃ args entity, fact.args = fact.subject :: args ∧ legend.Names fact.subject entity
    ∧ legend.Tells arena entity fact.relation args

theorem ArgFor.of_grows {before after : Legend} (h : before <+: after) {field : Field Nat}
    {arg : String} (harg : before.ArgFor field arg) : after.ArgFor field arg := by
  cases field with
  | digits text | text text => exact harg
  | child handle | children handles => exact Names.of_grows h harg

theorem Holds.of_grows {before after : Legend} (h : before <+: after) {arena : Arena} {fact : Fact}
    (hholds : before.Holds arena fact) : after.Holds arena fact := by
  obtain ⟨args, entity, hargs, hnames, htells⟩ := hholds
  refine ⟨args, entity, hargs, hnames.of_grows h, ?_⟩
  generalize fact.relation = relation at htells ⊢
  cases htells with
  | node hnode hforall => exact .node hnode (hforall.imp fun _ _ => ArgFor.of_grows h)
  | empty => exact .empty
  | elem hfirst hnext => exact .elem (hfirst.of_grows h) (hnext.of_grows h)

/-! ## Steps of an export -/

/-- From `before` to `after`, the export went on from `progress` to `result` by facts that hold, and
there is a fact about each of the `told` entries. -/
structure Written (arena : Arena) (before : Legend) (progress : Progress) (after : Legend)
    (result : Progress) (told : Nat → Prop) : Prop where
  grows : before <+: after
  agrees : after.Agrees result.numbering
  facts : ∃ facts, result.facts.toList = progress.facts.toList ++ facts
    ∧ (∀ fact ∈ facts, after.Holds arena fact)
    ∧ ∀ index, told index → ∃ fact ∈ facts, fact.subject = (index + 1).repr

namespace Written

variable {arena : Arena} {before between after : Legend} {progress middle result : Progress}
  {told told' : Nat → Prop}

theorem refl (h : before.Agrees progress.numbering) :
    Written arena before progress before progress fun _ => False where
  grows := List.prefix_rfl
  agrees := h
  facts := ⟨[], by simp⟩

theorem imp (h : Written arena before progress after result told)
    (himp : ∀ index, told' index → told index) :
    Written arena before progress after result told' where
  grows := h.grows
  agrees := h.agrees
  facts := by
    obtain ⟨facts, hfacts, hholds, htold⟩ := h.facts
    exact ⟨facts, hfacts, hholds, fun index hindex => htold index (himp index hindex)⟩

theorem trans (h : Written arena before progress between middle told)
    (h' : Written arena between middle after result told') :
    Written arena before progress after result fun index => told index ∨ told' index where
  grows := h.grows.trans h'.grows
  agrees := h'.agrees
  facts := by
    obtain ⟨facts, hfacts, hholds, htold⟩ := h.facts
    obtain ⟨more, hmore, hholds', htold'⟩ := h'.facts
    refine ⟨facts ++ more, by rw [hmore, hfacts, List.append_assoc], ?_, ?_⟩
    · intro fact hmem
      rcases List.mem_append.mp hmem with hmem | hmem
      · exact (hholds fact hmem).of_grows h'.grows
      · exact hholds' fact hmem
    · intro index hindex
      rcases hindex with hindex | hindex
      · obtain ⟨fact, hmem, hsubject⟩ := htold index hindex
        exact ⟨fact, List.mem_append_left _ hmem, hsubject⟩
      · obtain ⟨fact, hmem, hsubject⟩ := htold' index hindex
        exact ⟨fact, List.mem_append_right _ hmem, hsubject⟩

/-- A single fact about one entry. -/
theorem push {fact : Fact} {index : Nat} {entity : Entity} {args : List String}
    (hgrows : before <+: after) (hagrees : after.Agrees result.numbering)
    (hresult : result.facts = progress.facts.push fact)
    (hargs : fact.args = (index + 1).repr :: args) (hentity : after[index]? = some entity)
    (htells : after.Tells arena entity fact.relation args) :
    Written arena before progress after result (· = index) where
  grows := hgrows
  agrees := hagrees
  facts := by
    have hsubject : fact.subject = (index + 1).repr := by
      unfold Fact.subject
      simp [hargs]
    refine ⟨[fact], by rw [hresult, FactSet.toList_push], ?_, ?_⟩
    · intro other hother
      obtain rfl := List.mem_singleton.mp hother
      exact ⟨args, entity, by rw [hargs, hsubject], ⟨index, hentity, hsubject⟩, htells⟩
    · intro other hother
      subst hother
      exact ⟨fact, List.mem_singleton_self fact, hsubject⟩

end Written

end Legend

open Legend

/-! ## Tasks -/

/-- The cell of a list task has the items of the task. -/
def Task.Listed (legend : Legend) : Task → Prop
  | node _ _ => True
  | list _ cell items => ∃ index, cell = index + 1 ∧ legend[index]? = some (.cell items)

/-- The entry is about what the task names: its node, or its cell. -/
def Task.Owes (legend : Legend) (index : Nat) : Task → Prop
  | node _ handle => legend[index]? = some (.node handle)
  | list _ cell _ => index + 1 = cell

theorem Task.Listed.of_grows {before after : Legend} (h : before <+: after) {task : Task}
    (hlisted : task.Listed before) : task.Listed after := by
  cases task with
  | node levels handle => trivial
  | list levels cell items =>
    obtain ⟨index, hcell, hindex⟩ := hlisted
    exact ⟨index, hcell, getElem?_of_grows h hindex⟩

theorem Task.Owes.of_grows {before after : Legend} (h : before <+: after) {task : Task}
    {index : Nat} (howes : task.Owes before index) : task.Owes after index := by
  cases task with
  | node levels handle => exact getElem?_of_grows h howes
  | list levels cell items => exact howes

namespace Progress

variable {arena : Arena} {before : Legend} {progress : Progress}

/-! ## Lists -/

/-- The end of a list is told of its cell. -/
theorem written_addEnd {index : Nat} (hagrees : before.Agrees progress.numbering)
    (hcell : before[index]? = some (.cell [])) :
    Written arena before progress before (progress.addEnd (index + 1)) (· = index) :=
  .push List.prefix_rfl hagrees rfl rfl hcell .empty

/-- An item is told of its cell. The item and the next cell have their entries then. -/
theorem written_addItem {index item : Nat} {items : List Nat}
    (hagrees : before.Agrees progress.numbering)
    (hcell : before[index]? = some (.cell (item :: items))) :
    ∃ (after : Legend) (next : Nat),
      Written arena before progress after (progress.addItem (index + 1) item).2 (· = index)
        ∧ (progress.addItem (index + 1) item).1 = next + 1
        ∧ after[next]? = some (.cell items)
        ∧ ∀ other, before.Adds after other → other = next ∨ after[other]? = some (.node item) := by
  obtain ⟨between, number, hgrows, hagrees, hnumber, hnode, -, hadds⟩ := hagrees.node item
  obtain ⟨hagrees, hnext⟩ := hagrees.cell items
  have hgrows' : between <+: between ++ [Entity.cell items] := List.prefix_append _ _
  have hlast : (between ++ [Entity.cell items])[between.length]? = some (.cell items) := by simp
  refine ⟨between ++ [.cell items], between.length, ?_, hnext, hlast, ?_⟩
  · refine .push (hgrows.trans hgrows') hagrees rfl rfl
      (getElem?_of_grows (hgrows.trans hgrows') hcell) (.elem ?_ ?_)
    · exact ⟨number, getElem?_of_grows hgrows' hnode, congrArg Nat.repr hnumber⟩
    · exact ⟨between.length, hlast, congrArg Nat.repr hnext⟩
  · intro other hother
    rcases hother.split between with hnew | hnew
    · obtain rfl := hadds other hnew
      exact .inr (getElem?_of_grows hgrows' hnode)
    · exact .inl (adds_snoc.mp hnew)

/-! ## Nodes -/

/-- The arguments of a node say what its fields hold. What they number is left to the tasks. -/
theorem agrees_enter (levels : Nat) (fields : List (Field Nat)) {numbering : Numbering}
    (hagrees : before.Agrees numbering) :
    ∃ after : Legend, before <+: after ∧ after.Agrees (enter levels fields numbering).2
      ∧ List.Forall₂ after.ArgFor fields (enter levels fields numbering).1.args
      ∧ (∀ task ∈ (enter levels fields numbering).1.tasks, task.Listed after)
      ∧ ∀ other, before.Adds after other →
        ∃ task ∈ (enter levels fields numbering).1.tasks, task.Owes after other := by
  induction fields generalizing before numbering with
  | nil =>
    refine ⟨before, List.prefix_rfl, hagrees, .nil, by simp [enter], ?_⟩
    exact fun other hother => absurd hother not_adds_self
  | cons field fields ih =>
    cases field with
    | digits text | text text =>
      obtain ⟨after, hgrows, hafter, hargs, hlisted, howes⟩ := ih hagrees
      exact ⟨after, hgrows, hafter, .cons rfl hargs, hlisted, howes⟩
    | child handle =>
      obtain ⟨between, number, hgrows, hbetween, hnumber, hnode, -, hadds⟩ := hagrees.node handle
      obtain ⟨after, hgrows', hafter, hargs, hlisted, howes⟩ := ih hbetween
      have harg : after.Names (numbering.node handle).1.repr (.node handle) :=
        ⟨number, getElem?_of_grows hgrows' hnode, congrArg Nat.repr hnumber⟩
      refine ⟨after, hgrows.trans hgrows', hafter, .cons harg hargs, ?_, ?_⟩
      · exact List.forall_mem_cons.mpr ⟨trivial, hlisted⟩
      · intro other hother
        rcases hother.split between with hnew | hnew
        · obtain rfl := hadds other hnew
          exact ⟨_, List.mem_cons_self, getElem?_of_grows hgrows' hnode⟩
        · obtain ⟨task, hmem, htask⟩ := howes other hnew
          exact ⟨task, List.mem_cons_of_mem _ hmem, htask⟩
    | children handles =>
      obtain ⟨hbetween, hnumber⟩ := hagrees.cell handles
      have hgrows : before <+: before ++ [Entity.cell handles] := List.prefix_append _ _
      have hcell : (before ++ [Entity.cell handles])[before.length]? = some (.cell handles) := by
        simp
      obtain ⟨after, hgrows', hafter, hargs, hlisted, howes⟩ := ih hbetween
      have harg : after.Names numbering.cell.1.repr (.cell handles) :=
        ⟨before.length, getElem?_of_grows hgrows' hcell, congrArg Nat.repr hnumber⟩
      refine ⟨after, hgrows.trans hgrows', hafter, .cons harg hargs, ?_, ?_⟩
      · exact List.forall_mem_cons.mpr
          ⟨⟨before.length, hnumber, getElem?_of_grows hgrows' hcell⟩, hlisted⟩
      · intro other hother
        rcases hother.split (before ++ [.cell handles]) with hnew | hnew
        · obtain rfl := adds_snoc.mp hnew
          exact ⟨_, List.mem_cons_self, hnumber.symm⟩
        · obtain ⟨task, hmem, htask⟩ := howes other hnew
          exact ⟨task, List.mem_cons_of_mem _ hmem, htask⟩

/-- A node is told of its entry, which is new or was there. -/
theorem written_addNode (levels : Nat) {handle : Nat} {node : Node}
    (hnode : arena.get? handle = some node) (hagrees : before.Agrees progress.numbering) :
    ∃ (after : Legend) (index : Nat),
      Written arena before progress after (progress.addNode levels handle node).2 (· = index)
        ∧ index ≤ before.length ∧ after[index]? = some (.node handle)
        ∧ (∀ task ∈ (progress.addNode levels handle node).1, task.Listed after)
        ∧ ∀ other, before.Adds after other → other = index ∨
          ∃ task ∈ (progress.addNode levels handle node).1, task.Owes after other := by
  obtain ⟨between, index, hgrows, hbetween, hnumber, hindex, hle, hadds⟩ := hagrees.node handle
  obtain ⟨after, hgrows', hafter, hargs, hlisted, howes⟩ :=
    agrees_enter levels node.fields hbetween
  have hindex' := getElem?_of_grows hgrows' hindex
  refine ⟨after, index, ?_, hle, hindex', hlisted, ?_⟩
  · have hsubject := congrArg Nat.repr hnumber
    refine .push (hgrows.trans hgrows') hafter rfl ?_ hindex' (.node hnode hargs)
    rw [← hsubject]
  · intro other hother
    rcases hother.split between with hnew | hnew
    · exact .inl (hadds other hnew)
    · exact .inr (howes other hnew)

/-! ## All that lies below -/

/-- What is exported below a node is told of every new entry and of the node's own. -/
def Tellable (arena : Arena) (child : Nat → Progress → Option Progress) : Prop :=
  ∀ {before : Legend} {handle : Nat} {progress result : Progress},
    before.Agrees progress.numbering → child handle progress = some result →
    ∃ (after : Legend) (number : Nat), number ≤ before.length
      ∧ after[number]? = some (.node handle)
      ∧ Written arena before progress after result fun index =>
        before.Adds after index ∨ after[index]? = some (.node handle)

section Below

variable {child : Nat → Progress → Option Progress} (hchild : Tellable arena child)

include hchild

theorem written_preorderList {index : Nat} {items : List Nat} {result : Progress}
    (hagrees : before.Agrees progress.numbering) (hcell : before[index]? = some (.cell items))
    (hresult : preorderList child (index + 1) items progress = some result) :
    ∃ after : Legend, Written arena before progress after result fun other =>
      before.Adds after other ∨ other = index := by
  induction items generalizing before index progress with
  | nil =>
    obtain rfl := Option.some.inj hresult
    refine ⟨before, (written_addEnd hagrees hcell).imp fun other hother => ?_⟩
    exact hother.resolve_left not_adds_self
  | cons item items ih =>
    rw [preorderList_cons] at hresult
    obtain ⟨middle, hmiddle, hresult⟩ := Option.bind_eq_some_iff.mp hresult
    obtain ⟨first, next, hfirst, hnumber, hnext, hadds⟩ := written_addItem hagrees hcell
    obtain ⟨second, -, -, -, hsecond⟩ := hchild hfirst.agrees hmiddle
    rw [hnumber] at hresult
    obtain ⟨after, hafter⟩ :=
      ih hsecond.agrees (getElem?_of_grows hsecond.grows hnext) hresult
    refine ⟨after, ((hfirst.trans hsecond).trans hafter).imp fun other hother => ?_⟩
    rcases hother with hnew | rfl
    · rcases hnew.split first with hnew | hnew
      · -- The new entries of this cell are the next cell and the item.
        rcases hadds other hnew with rfl | hnode
        · exact .inr (.inr rfl)
        · exact .inl (.inr (.inr (getElem?_of_grows hsecond.grows hnode)))
      · rcases hnew.split second with hnew | hnew
        · exact .inl (.inr (.inl hnew))
        · exact .inr (.inl hnew)
    · exact .inl (.inl rfl)

theorem written_preorderTask {task : Task} {result : Progress}
    (hagrees : before.Agrees progress.numbering) (hlisted : task.Listed before)
    (hresult : preorderTask child task progress = some result) :
    ∃ after : Legend, Written arena before progress after result fun other =>
      before.Adds after other ∨ task.Owes after other := by
  cases task with
  | node levels handle =>
    obtain ⟨after, -, -, -, hwritten⟩ := hchild hagrees hresult
    exact ⟨after, hwritten⟩
  | list levels cell items =>
    obtain ⟨index, rfl, hcell⟩ := hlisted
    obtain ⟨after, hwritten⟩ := written_preorderList hchild hagrees hcell hresult
    refine ⟨after, hwritten.imp fun other hother => ?_⟩
    rcases hother with hadds | howes
    · exact .inl hadds
    · exact .inr (Nat.succ.inj howes)

theorem written_preorderTasks {tasks : List Task} {result : Progress}
    (hagrees : before.Agrees progress.numbering) (hlisted : ∀ task ∈ tasks, task.Listed before)
    (hresult : preorderTasks child tasks progress = some result) :
    ∃ after : Legend, Written arena before progress after result fun other =>
      before.Adds after other ∨ ∃ task ∈ tasks, task.Owes before other := by
  induction tasks generalizing before progress with
  | nil =>
    obtain rfl := Option.some.inj hresult
    refine ⟨before, (Written.refl hagrees).imp fun other hother => ?_⟩
    rcases hother with hnew | ⟨task, hmem, -⟩
    · exact not_adds_self hnew
    · simp at hmem
  | cons task tasks ih =>
    rw [preorderTasks_cons] at hresult
    obtain ⟨middle, hmiddle, hresult⟩ := Option.bind_eq_some_iff.mp hresult
    obtain ⟨hlisted, hmore⟩ := List.forall_mem_cons.mp hlisted
    obtain ⟨between, hfirst⟩ := written_preorderTask hchild hagrees hlisted hmiddle
    obtain ⟨after, hafter⟩ :=
      ih hfirst.agrees (fun task hmem => (hmore task hmem).of_grows hfirst.grows) hresult
    refine ⟨after, (hfirst.trans hafter).imp fun other hother => ?_⟩
    rcases hother with hnew | ⟨owing, hmem, howes⟩
    · rcases hnew.split between with hnew | hnew
      · exact .inl (.inl hnew)
      · exact .inr (.inl hnew)
    · rcases List.mem_cons.mp hmem with rfl | hmem
      · exact .inl (.inr (howes.of_grows hfirst.grows))
      · exact .inr (.inr ⟨owing, hmem, howes.of_grows hfirst.grows⟩)

end Below

theorem written_preorder (levels : Nat) : Tellable arena (preorder arena levels) := by
  induction levels with
  | zero =>
    intro before handle progress result _ hresult
    simp [preorder] at hresult
  | succ levels ih =>
    intro before handle progress result hagrees hresult
    rw [preorder_succ] at hresult
    obtain ⟨node, hnode, htasks⟩ := Option.bind_eq_some_iff.mp hresult
    obtain ⟨between, number, hfirst, hle, hnumber, hlisted, hadds⟩ :=
      written_addNode levels hnode hagrees
    obtain ⟨after, hafter⟩ := written_preorderTasks ih hfirst.agrees hlisted htasks
    refine ⟨after, number, hle, getElem?_of_grows hafter.grows hnumber,
      (hfirst.trans hafter).imp fun other hother => ?_⟩
    rcases hother with hnew | hother
    · rcases hnew.split between with hnew | hnew
      · rcases hadds other hnew with rfl | howes
        · exact .inl rfl
        · exact .inr (.inr howes)
      · exact .inr (.inl hnew)
    · exact .inl (hafter.agrees.node_unique hother (getElem?_of_grows hafter.grows hnumber))

end Progress

/-- The identifiers of a whole export: the root is the first, every fact holds, and there is a fact
about every identifier. -/
theorem Ast.exists_legend {ast : Ast} {final : Progress} (h : ast.export? = some final) :
    ∃ legend : Legend, legend.Agrees final.numbering ∧ legend[0]? = some (.node ast.root)
      ∧ (∀ fact ∈ final.facts.toList, legend.Holds ast.arena fact)
      ∧ ∀ index < legend.length, ∃ fact ∈ final.facts.toList,
        fact.subject = (index + 1).repr := by
  rw [Ast.export?, Progress.run_node] at h
  obtain ⟨legend, number, hnumber, hroot, hwritten⟩ :=
    Progress.written_preorder ast.arena.size Agrees.fresh h
  obtain rfl : number = 0 := Nat.le_zero.mp hnumber
  obtain ⟨facts, hfacts, hholds, htold⟩ := hwritten.facts
  have hall : final.facts.toList = facts := hfacts
  rw [hall]
  exact ⟨legend, hwritten.agrees, hroot, hholds, fun index hlt =>
    htold index (.inl ⟨Nat.zero_le index, hlt⟩)⟩

end ScriptFacts
