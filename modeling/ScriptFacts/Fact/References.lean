import ScriptFacts.Arena.Signature
import ScriptFacts.Fact.Export

/-!
# References

Which arguments of a fact are identifiers, and of what: those for children stand for nodes, those
for sequences stand for the list cells at which the sequences begin, and a fact about a cell names
the item there and the next cell. The first argument is no reference but the topic of the fact.

A sequence takes a cell for each item and one more, at which it ends.

* `Relation.length_referents`: every argument after the first is a reference or is known to be none.
* `Fact.mem_references_of_headAt`: the cells at which sequences begin are referred to.
-/
namespace ScriptFacts

/-! ## Identifiers in facts -/

/-- What an identifier stands for. -/
inductive Referent
  | node
  | cell
deriving DecidableEq, Repr

/-- An identifier in a place where one of this sort is wanted. -/
structure Reference where
  referent : Referent
  id : String
deriving DecidableEq, Repr

/-- What the argument for a field of a sort refers to, if it is an identifier. -/
def FieldSort.referent? : FieldSort → Option Referent
  | .leaf _ => none
  | .one _ => some .node
  | .many _ => some .cell

namespace Relation

/-- What the facts of a relation are about. -/
def topic : Relation → Referent
  | node _ => .node
  | empty | elem => .cell

/-- What the arguments after the first refer to, those that are identifiers. -/
def referents : Relation → List (Option Referent)
  | node kind => kind.signature.map FieldSort.referent?
  | empty => []
  | elem => [some .node, some .cell]

theorem length_referents (relation : Relation) :
    relation.referents.length + 1 = relation.arity := by
  cases relation with
  | node kind => simp [referents, arity, kind.length_signature, Nat.add_comm]
  | empty | elem => rfl

theorem topic_eq_cell_iff {relation : Relation} :
    relation.topic = .cell ↔ relation = .elem ∨ relation = .empty := by
  cases relation <;> simp [topic]

/-- The argument at a position is the cell at which a list of a node begins. -/
def HeadAt : Relation → Nat → Prop
  | node kind, position + 1 => (node kind).referents[position]? = some (some .cell)
  | _, _ => False

theorem HeadAt.exists_referent {relation : Relation} {position : Nat}
    (h : relation.HeadAt position) :
    ∃ place, position = place + 1 ∧ relation.referents[place]? = some (some .cell) := by
  cases relation with
  | empty | elem => exact h.elim
  | node kind =>
    cases position with
    | zero => exact h.elim
    | succ place => exact ⟨place, rfl, h⟩

end Relation

/-- The arguments that are identifiers, in order. -/
def referencesAmong : List (Option Referent) → List String → List Reference
  | some referent :: referents, arg :: args => ⟨referent, arg⟩ :: referencesAmong referents args
  | none :: referents, _ :: args => referencesAmong referents args
  | _, _ => []

/-- What a fact is about. -/
def Fact.topic (fact : Fact) : Reference :=
  ⟨fact.relation.topic, fact.subject⟩

/-- What a fact refers to, in the order of its arguments. -/
def Fact.references (fact : Fact) : List Reference :=
  referencesAmong fact.relation.referents fact.args.tail

/-- What facts refer to, all their reference positions in order. -/
def FactSet.references (set : FactSet) : List Reference :=
  set.toList.flatMap Fact.references

theorem mem_referencesAmong {referent : Referent} {id : String} {referents : List (Option Referent)}
    {args : List String} {position : Nat} (hreferent : referents[position]? = some (some referent))
    (harg : args[position]? = some id) : ⟨referent, id⟩ ∈ referencesAmong referents args := by
  induction referents generalizing args position with
  | nil => simp at hreferent
  | cons first referents ih =>
    cases args with
    | nil => simp at harg
    | cons arg args =>
      cases position with
      | zero =>
        obtain rfl : first = some referent := Option.some.inj hreferent
        obtain rfl : arg = id := Option.some.inj harg
        exact List.mem_cons_self
      | succ position =>
        have hmem := ih hreferent harg
        cases first with
        | none => exact hmem
        | some other => exact List.mem_cons_of_mem _ hmem

/-- The cell at which a list of a node begins is among the references of the node's fact. -/
theorem Fact.mem_references_of_headAt {fact : Fact} {position : Nat} {id : String}
    (hhead : fact.relation.HeadAt position) (harg : fact.args[position]? = some id) :
    ⟨.cell, id⟩ ∈ fact.references := by
  obtain ⟨place, rfl, hreferent⟩ := hhead.exists_referent
  refine mem_referencesAmong hreferent ?_
  rw [List.getElem?_tail, harg]

/-- Where a list of a node begins, there is an argument. -/
theorem Fact.exists_head {fact : Fact} {position : Nat} (hhead : fact.relation.HeadAt position) :
    ∃ id, fact.args[position]? = some id := by
  have hlength : fact.relation.referents.length + 1 = fact.args.length :=
    fact.relation.length_referents.trans fact.length_args.symm
  obtain ⟨place, rfl, hreferent⟩ := hhead.exists_referent
  have hplace := (List.getElem?_eq_some_iff.mp hreferent).1
  have hlt : place + 1 < fact.args.length := by omega
  exact ⟨_, List.getElem?_eq_getElem hlt⟩

/-! ## Cells -/

/-- The number of cells that a field takes. -/
def Field.cells {α : Type} : Field α → Nat
  | .digits _ | .text _ | .child _ => 0
  | .children items => items.length + 1

/-- The number of cells that the sequences of a node take. -/
def Node.cells (node : Node) : Nat :=
  totalWeight (node.fields.map Field.cells)

/-- The number of cells that the sequences of all nodes take. -/
def Arena.cells (arena : Arena) : Nat :=
  totalWeight (arena.nodes.toList.map Node.cells)

end ScriptFacts
