import Mathlib.Data.List.Forall2
import ScriptFacts.Fact.References
import ScriptFacts.Proofs.Fact.Recursion
import Std.Data.TreeMap.Lemmas

/-!
# References are taken up

An export writes its facts so that every identifier to which a fact refers is taken up later, by a
fact about it. What is still to be taken up is what the stack of tasks names: the children of a node
in field order, and at a list cell the item and the next cell. So the facts are a listing of the
references in prefix order, like a term written without parentheses.

* `Accounts`: facts that take up given references, and in their turn what they refer to.
* `Accounts.perm_topics`: what facts are about is what was owed and what they refer to.
* `Progress.settles_preorder`: what is exported below a node takes up a reference to the node, and
  every cell in it is new.
-/
namespace ScriptFacts

open scoped List

/-! ## Accounts -/

/-- The facts take up the references one after the other: each by a fact about it, which is followed
by the facts that take up what it refers to. -/
inductive Accounts : List Reference → List Fact → Prop
  | nil : Accounts [] []
  | cons {fact : Fact} {owed : List Reference} {below more : List Fact}
    (hbelow : Accounts fact.references below) (hmore : Accounts owed more) :
    Accounts (fact.topic :: owed) (fact :: (below ++ more))

/-- Whatever a fact refers to, a later fact is about. -/
def Resolved : List Fact → Prop
  | [] => True
  | fact :: facts => (∀ reference ∈ fact.references, reference ∈ facts.map Fact.topic)
      ∧ Resolved facts

theorem Resolved.append {facts more : List Fact} (h : Resolved facts) (hmore : Resolved more) :
    Resolved (facts ++ more) := by
  induction facts with
  | nil => exact hmore
  | cons fact facts ih =>
    obtain ⟨hlater, hfacts⟩ := h
    refine ⟨fun reference hmem => ?_, ih hfacts⟩
    show reference ∈ (facts ++ more).map Fact.topic
    rw [List.map_append]
    exact List.mem_append_left _ (hlater reference hmem)

theorem Resolved.exists_later {facts : List Fact} (h : Resolved facts) {index : Nat} {fact : Fact}
    (hfact : facts[index]? = some fact) {reference : Reference}
    (hmem : reference ∈ fact.references) :
    ∃ later other, index < later ∧ facts[later]? = some other ∧ other.topic = reference := by
  induction facts generalizing index with
  | nil => simp at hfact
  | cons first facts ih =>
    obtain ⟨hlater, hfacts⟩ := h
    cases index with
    | zero =>
      obtain rfl : first = fact := Option.some.inj hfact
      obtain ⟨other, hother, htopic⟩ := List.mem_map.mp (hlater reference hmem)
      obtain ⟨later, hget⟩ := List.mem_iff_getElem?.mp hother
      exact ⟨later + 1, other, Nat.succ_pos later, hget, htopic⟩
    | succ index =>
      obtain ⟨later, other, hlt, hget, htopic⟩ := ih hfacts hfact
      exact ⟨later + 1, other, Nat.succ_lt_succ hlt, hget, htopic⟩

namespace Accounts

theorem append {owed more : List Reference} {facts others : List Fact} (h : Accounts owed facts)
    (hmore : Accounts more others) : Accounts (owed ++ more) (facts ++ others) := by
  induction h with
  | nil => exact hmore
  | @cons fact owed below rest hbelow _ _ ih =>
    rw [List.cons_append, List.cons_append, List.append_assoc]
    exact .cons hbelow ih

/-- What the facts are about: the references that were owed, and those in the facts themselves. -/
theorem perm_topics {owed : List Reference} {facts : List Fact} (h : Accounts owed facts) :
    facts.map Fact.topic ~ owed ++ facts.flatMap Fact.references := by
  induction h with
  | nil => exact .nil
  | @cons fact owed below more _ _ ih ih' =>
    simp only [List.map_cons, List.map_append, List.cons_append, List.flatMap_cons,
      List.flatMap_append]
    refine .cons _ ?_
    calc
      _ ~ (fact.references ++ below.flatMap Fact.references)
          ++ (owed ++ more.flatMap Fact.references) := ih.append ih'
      _ = (fact.references ++ below.flatMap Fact.references) ++ owed
          ++ more.flatMap Fact.references := by simp
      _ ~ owed ++ (fact.references ++ below.flatMap Fact.references)
          ++ more.flatMap Fact.references := List.perm_append_comm.append_right _
      _ = owed ++ (fact.references
          ++ (below.flatMap Fact.references ++ more.flatMap Fact.references)) := by simp

/-- The first reference is taken up by the first fact. -/
theorem exists_head {reference : Reference} {owed : List Reference} {facts : List Fact}
    (h : Accounts (reference :: owed) facts) :
    ∃ fact, facts[0]? = some fact ∧ fact.topic = reference := by
  cases h with
  | cons => exact ⟨_, rfl, rfl⟩

theorem resolved {owed : List Reference} {facts : List Fact} (h : Accounts owed facts) :
    Resolved facts := by
  induction h with
  | nil => trivial
  | @cons fact owed below more hbelow _ ih ih' =>
    refine ⟨fun reference hmem => ?_, ih.append ih'⟩
    have htopic : reference ∈ below.map Fact.topic :=
      hbelow.perm_topics.mem_iff.mpr (List.mem_append_left _ hmem)
    rw [List.map_append]
    exact List.mem_append_left _ htopic

end Accounts

/-! ## Growing numberings -/

namespace Numbering

/-- `after` goes on where `before` stopped: what has a number keeps it. -/
structure Grows (before after : Numbering) : Prop where
  issued : before.issued ≤ after.issued
  known : ∀ {handle number : Nat}, before.known[handle]? = some number →
    after.known[handle]? = some number

theorem Grows.refl (numbering : Numbering) : numbering.Grows numbering :=
  ⟨Nat.le_refl _, id⟩

theorem Grows.trans {a b c : Numbering} (hab : a.Grows b) (hbc : b.Grows c) : a.Grows c :=
  ⟨Nat.le_trans hab.issued hbc.issued, fun h => hbc.known (hab.known h)⟩

theorem node_of_known {numbering : Numbering} {handle number : Nat}
    (h : numbering.known[handle]? = some number) : numbering.node handle = (number, numbering) := by
  unfold node
  rw [h]

theorem known_node (numbering : Numbering) (handle : Nat) :
    (numbering.node handle).2.known[handle]? = some (numbering.node handle).1 := by
  unfold node
  split
  · next h => exact h
  · simp

theorem grows_node (numbering : Numbering) (handle : Nat) :
    numbering.Grows (numbering.node handle).2 := by
  unfold node
  split
  · exact .refl numbering
  · next hnone =>
    refine ⟨Nat.le_succ _, fun {other number} hknown => ?_⟩
    have hne : handle ≠ other := by
      rintro rfl
      rw [hnone] at hknown
      simp at hknown
    have hcompare : compare handle other ≠ .eq := by simpa using hne
    rw [Std.TreeMap.getElem?_insert, if_neg hcompare]
    exact hknown

theorem grows_cell (numbering : Numbering) : numbering.Grows numbering.cell.2 :=
  ⟨Nat.le_succ _, id⟩

/-- On the way from `before` to `after`, the cells among the references were numbered, one after the
other. -/
def NumbersCells (before after : Numbering) (references : List Reference) : Prop :=
  ∃ cells : List Nat, references.filter (·.referent = .cell) = cells.map (⟨.cell, ·.repr⟩)
    ∧ cells.Pairwise (· < ·) ∧ ∀ cell ∈ cells, before.issued < cell ∧ cell ≤ after.issued

namespace NumbersCells

variable {before between after : Numbering} {references more : List Reference}

theorem nil (before after : Numbering) : before.NumbersCells after [] :=
  ⟨[], rfl, .nil, List.forall_mem_nil _⟩

theorem node (before after : Numbering) (id : String) :
    before.NumbersCells after [⟨.node, id⟩] :=
  ⟨[], rfl, .nil, List.forall_mem_nil _⟩

theorem cell (numbering : Numbering) :
    numbering.NumbersCells numbering.cell.2 [⟨.cell, numbering.cell.1.repr⟩] :=
  ⟨[numbering.cell.1], rfl, List.pairwise_singleton _ _, by simp [Numbering.cell]⟩

/-- What is numbered later has larger numbers. -/
theorem append (hgrows : before.Grows between) (hgrows' : between.Grows after)
    (h : before.NumbersCells between references) (hmore : between.NumbersCells after more) :
    before.NumbersCells after (references ++ more) := by
  obtain ⟨cells, hcells, hincreasing, hrange⟩ := h
  obtain ⟨others, hothers, hincreasing', hrange'⟩ := hmore
  refine ⟨cells ++ others, by rw [List.filter_append, hcells, hothers, List.map_append],
    List.pairwise_append.mpr ⟨hincreasing, hincreasing', fun cell hcell other hother => ?_⟩, ?_⟩
  · exact Nat.lt_of_le_of_lt (hrange cell hcell).2 (hrange' other hother).1
  · intro cell hcell
    rcases List.mem_append.mp hcell with hcell | hcell
    · exact ⟨(hrange cell hcell).1, Nat.le_trans (hrange cell hcell).2 hgrows'.issued⟩
    · exact ⟨Nat.lt_of_le_of_lt hgrows.issued (hrange' cell hcell).1, (hrange' cell hcell).2⟩

end NumbersCells

end Numbering

/-! ## References and tasks -/

/-- What the argument for a field refers to, if it is an identifier. -/
def Field.referent? {α : Type} : Field α → Option Referent
  | .digits _ | .text _ => none
  | .child _ => some .node
  | .children _ => some .cell

theorem Node.map_referent?_fields (node : Node) :
    node.fields.map Field.referent? = (Relation.node node.kind).referents := by
  cases node <;> rfl

/-- The reference is to what the task is about: to its node, which has a number, or to its cell. -/
def Task.OwedAs (numbering : Numbering) : Task → Reference → Prop
  | node _ handle, reference =>
    ∃ number, numbering.known[handle]? = some number ∧ reference = ⟨.node, number.repr⟩
  | list _ cell _, reference => reference = ⟨.cell, cell.repr⟩

theorem Task.OwedAs.of_grows {before after : Numbering} (h : before.Grows after) {task : Task}
    {reference : Reference} (howed : task.OwedAs before reference) :
    task.OwedAs after reference := by
  cases task with
  | node levels handle =>
    obtain ⟨number, hknown, hreference⟩ := howed
    exact ⟨number, h.known hknown, hreference⟩
  | list levels cell items => exact howed

namespace Progress

/-- The identifiers in the arguments of a node refer to what its tasks are about. -/
theorem owed_enter (levels : Nat) (fields : List (Field Nat)) (numbering : Numbering) :
    numbering.Grows (enter levels fields numbering).2
      ∧ List.Forall₂ (Task.OwedAs (enter levels fields numbering).2)
        (enter levels fields numbering).1.tasks
        (referencesAmong (fields.map Field.referent?) (enter levels fields numbering).1.args)
      ∧ numbering.NumbersCells (enter levels fields numbering).2
        (referencesAmong (fields.map Field.referent?) (enter levels fields numbering).1.args) := by
  induction fields generalizing numbering with
  | nil => exact ⟨.refl numbering, .nil, .nil _ _⟩
  | cons field fields ih =>
    cases field with
    | digits text | text text => exact ih numbering
    | child handle =>
      have hfirst := numbering.grows_node handle
      obtain ⟨hgrows, htasks, hcells⟩ := ih (numbering.node handle).2
      have hknown := hgrows.known (numbering.known_node handle)
      exact ⟨hfirst.trans hgrows, .cons ⟨_, hknown, rfl⟩ htasks,
        (Numbering.NumbersCells.node _ _ _).append hfirst hgrows hcells⟩
    | children handles =>
      have hfirst := numbering.grows_cell
      obtain ⟨hgrows, htasks, hcells⟩ := ih numbering.cell.2
      exact ⟨hfirst.trans hgrows, .cons rfl htasks,
        (Numbering.NumbersCells.cell numbering).append hfirst hgrows hcells⟩

end Progress

/-! ## Steps of an export -/

/-- From `progress` to `after`, facts were added that take up the references, and all cells to which
they refer in their turn are new. -/
structure Settles (progress after : Progress) (owed : List Reference) : Prop where
  grows : progress.numbering.Grows after.numbering
  facts : ∃ facts, after.facts.toList = progress.facts.toList ++ facts ∧ Accounts owed facts
    ∧ progress.numbering.NumbersCells after.numbering (facts.flatMap Fact.references)

namespace Settles

theorem refl (progress : Progress) : Settles progress progress [] :=
  ⟨.refl _, [], by simp, .nil, .nil _ _⟩

theorem append {progress between after : Progress} {owed more : List Reference}
    (h : Settles progress between owed) (hmore : Settles between after more) :
    Settles progress after (owed ++ more) where
  grows := h.grows.trans hmore.grows
  facts := by
    obtain ⟨facts, hfacts, haccounts, hcells⟩ := h.facts
    obtain ⟨others, hothers, haccounts', hcells'⟩ := hmore.facts
    refine ⟨facts ++ others, by rw [hothers, hfacts, List.append_assoc],
      haccounts.append haccounts', ?_⟩
    rw [List.flatMap_append]
    exact hcells.append h.grows hmore.grows hcells'

/-- A fact takes up what it is about, and leaves its own references to be taken up. -/
theorem push {progress between after : Progress} {fact : Fact}
    (hfact : between.facts = progress.facts.push fact)
    (hgrows : progress.numbering.Grows between.numbering)
    (hcells : progress.numbering.NumbersCells between.numbering fact.references)
    (hbelow : Settles between after fact.references) : Settles progress after [fact.topic] where
  grows := hgrows.trans hbelow.grows
  facts := by
    obtain ⟨facts, hfacts, haccounts, hcells'⟩ := hbelow.facts
    refine ⟨fact :: (facts ++ []), ?_, .cons haccounts .nil, ?_⟩
    · rw [hfacts, hfact, FactSet.toList_push, List.append_nil, List.append_assoc,
        List.singleton_append]
    · rw [List.append_nil, List.flatMap_cons]
      exact hcells.append hgrows hbelow.grows hcells'

end Settles

namespace Progress

variable {arena : Arena}

/-- What is exported below a node takes up a reference to it. -/
def Settling (child : Nat → Progress → Option Progress) : Prop :=
  ∀ {handle : Nat} {progress after : Progress}, child handle progress = some after →
    Settles progress after [⟨.node, (progress.numbering.node handle).1.repr⟩]

section Below

variable {child : Nat → Progress → Option Progress} (hchild : Settling child)

include hchild

theorem settles_known {handle number : Nat} {progress after : Progress}
    (hknown : progress.numbering.known[handle]? = some number)
    (h : child handle progress = some after) :
    Settles progress after [⟨.node, number.repr⟩] := by
  have hsettles := hchild h
  rwa [Numbering.node_of_known hknown] at hsettles

theorem settles_preorderList {cell : Nat} {items : List Nat} {progress after : Progress}
    (h : preorderList child cell items progress = some after) :
    Settles progress after [⟨.cell, cell.repr⟩] := by
  induction items generalizing cell progress with
  | nil =>
    obtain rfl := Option.some.inj h
    have hfact : (progress.addEnd cell).facts = progress.facts.push (.emptyAt cell) := rfl
    exact .push hfact (.refl _) (.nil _ _) (.refl _)
  | cons item items ih =>
    rw [preorderList_cons] at h
    obtain ⟨between, hbetween, hafter⟩ := Option.bind_eq_some_iff.mp h
    let named := progress.numbering.node item
    have hnode := progress.numbering.grows_node item
    have hcell := named.2.grows_cell
    have hfact : (progress.addItem cell item).2.facts
        = progress.facts.push (.elemAt cell named.1 named.2.cell.1) := rfl
    have hcells : progress.numbering.NumbersCells named.2.cell.2
        (Fact.elemAt cell named.1 named.2.cell.1).references :=
      (Numbering.NumbersCells.node _ _ _).append hnode hcell (.cell named.2)
    have hknown := hcell.known (progress.numbering.known_node item)
    have hitem := settles_known hchild hknown hbetween
    exact .push hfact (hnode.trans hcell) hcells (hitem.append (ih hafter))

theorem settles_preorderTasks {tasks : List Task} {owed : List Reference}
    {progress after : Progress}
    (howed : List.Forall₂ (Task.OwedAs progress.numbering) tasks owed)
    (h : preorderTasks child tasks progress = some after) : Settles progress after owed := by
  induction tasks generalizing owed progress with
  | nil =>
    cases howed
    obtain rfl := Option.some.inj h
    exact .refl progress
  | cons task tasks ih =>
    obtain ⟨reference, owed, hfirst, hmore, rfl⟩ := List.forall₂_cons_left_iff.mp howed
    rw [preorderTasks_cons] at h
    obtain ⟨between, hbetween, hafter⟩ := Option.bind_eq_some_iff.mp h
    have htask : Settles progress between [reference] := by
      cases task with
      | node levels handle =>
        obtain ⟨number, hknown, rfl⟩ := hfirst
        exact settles_known hchild hknown hbetween
      | list levels cell items =>
        obtain rfl := hfirst
        exact settles_preorderList hchild hbetween
    -- The numbers that the other tasks wait for are kept meanwhile.
    have hgrown := hmore.imp fun _ _ => Task.OwedAs.of_grows htask.grows
    exact htask.append (ih hgrown hafter)

end Below

/-- A node adds a fact about itself, which refers to what its fields name. -/
theorem facts_addNode (progress : Progress) (levels handle : Nat) (node : Node) :
    ∃ fact : Fact, (progress.addNode levels handle node).2.facts = progress.facts.push fact
      ∧ fact.topic = ⟨.node, (progress.numbering.node handle).1.repr⟩
      ∧ fact.references = referencesAmong (node.fields.map Field.referent?)
        (enter levels node.fields (progress.numbering.node handle).2).1.args :=
  ⟨_, rfl, rfl, by rw [node.map_referent?_fields]; rfl⟩

/-- What is exported below a node, shared or not, takes up a reference to the node and whatever the
facts refer to, each by a fact of its own. -/
theorem settles_preorder (levels : Nat) : Settling (preorder arena levels) := by
  induction levels with
  | zero =>
    intro handle progress after h
    simp [preorder] at h
  | succ levels ih =>
    intro handle progress after h
    rw [preorder_succ] at h
    obtain ⟨node, -, htasks⟩ := Option.bind_eq_some_iff.mp h
    obtain ⟨fact, hfact, htopic, hreferences⟩ := facts_addNode progress levels handle node
    have hnode := progress.numbering.grows_node handle
    obtain ⟨hgrows, howed, hcells⟩ :=
      owed_enter levels node.fields (progress.numbering.node handle).2
    rw [← hreferences] at howed hcells
    rw [← htopic]
    have hcells' := (Numbering.NumbersCells.nil _ _).append hnode hgrows hcells
    have hbelow := settles_preorderTasks ih howed htasks
    exact .push hfact (hnode.trans hgrows) hcells' hbelow

end Progress

/-- In a whole export, the facts take up the identifier of the root and whatever they refer to. -/
theorem Ast.accounts_export {ast : Ast} {final : Progress} (h : ast.export? = some final) :
    Accounts [⟨.node, "1"⟩] final.facts.toList
      ∧ Numbering.fresh.NumbersCells final.numbering final.facts.references := by
  rw [Ast.export?, Progress.run_node] at h
  obtain ⟨-, facts, hfacts, haccounts, hcells⟩ := Progress.settles_preorder _ h
  obtain rfl : final.facts.toList = facts := hfacts
  have hroot : (Progress.start.numbering.node ast.root).1 = 1 := by
    simp [Progress.start, Numbering.fresh, Numbering.node]
  have hdigits : Nat.repr 1 = "1" := by decide
  rw [hroot, hdigits] at haccounts
  exact ⟨haccounts, hcells⟩

end ScriptFacts
