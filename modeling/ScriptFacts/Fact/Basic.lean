import ScriptFacts.Arena.Node

/-!
# Facts

A fact is a relation with arguments, all of them texts. There is a relation for each kind of node,
and two more for the cells of lists. The number of arguments is fixed by the relation, and the first
argument is the subject: the identifier of the node or list cell that the fact describes.

* `FactSet.render_push`: adding a fact adds its line at the end of the text.
-/
namespace ScriptFacts

/-! ## Relations -/

/-- The relation of a fact. -/
inductive Relation
  /-- A node of this kind, with its fields. -/
  | node (kind : Kind)
  /-- A list cell at which the list ends. -/
  | empty
  /-- A list cell with an item and the cell after it. -/
  | elem
deriving DecidableEq, Repr

namespace Relation

/-- The name of a relation. -/
def name : Relation → String
  | node kind => kind.name
  | empty => "Empty"
  | elem => "Elem"

/-- The number of arguments of a fact: the subject and one for each field. -/
def arity : Relation → Nat
  | node kind => 1 + kind.fieldNames.length
  | empty => 1
  | elem => 3

/-- The relation of a name, if any. -/
def ofName? (name : String) : Option Relation :=
  if name = "Empty" then some empty
  else if name = "Elem" then some elem
  else (Kind.ofName? name).map node

theorem arity_pos (relation : Relation) : 0 < relation.arity := by
  cases relation <;> simp only [arity] <;> omega

theorem ofName?_name (relation : Relation) : ofName? relation.name = some relation := by
  cases relation with
  | node kind => cases kind <;> decide
  | empty => rfl
  | elem => rfl

end Relation

/-! ## Facts -/

/-- A relation with as many arguments as it takes. -/
structure Fact where
  relation : Relation
  args : List String
  length_args : args.length = relation.arity
deriving DecidableEq

/-- How the name of a relation is written. -/
inductive NameStyle
  /-- Between single quotes. -/
  | quoted
  /-- As it is. -/
  | bare
deriving DecidableEq, Repr

/-- A text between single quotes, its own quotes left as they are. -/
def quote (text : String) : String :=
  "'" ++ text ++ "'"

namespace Fact

/-- The fact with the given arguments, if they are as many as the relation takes. -/
def ofArgs? (relation : Relation) (args : List String) : Option Fact :=
  if h : args.length = relation.arity then some ⟨relation, args, h⟩ else none

/-- The identifier of what a fact describes. -/
def subject (fact : Fact) : String :=
  fact.args.head (by
    intro h
    have := fact.relation.arity_pos
    rw [← fact.length_args, h] at this
    simp at this)

/-- The list ends at `cell`. -/
def emptyAt (cell : Nat) : Fact :=
  ⟨.empty, [cell.repr], rfl⟩

/-- The list goes on at `cell` with an item, and then at `next`. -/
def elemAt (cell item next : Nat) : Fact :=
  ⟨.elem, [cell.repr, item.repr, next.repr], rfl⟩

/-- Further arguments, each after a comma. -/
def renderMore : List String → String
  | [] => ""
  | arg :: args => "," ++ quote arg ++ renderMore args

/-- Arguments with commas between them. -/
def renderArgs : List String → String
  | [] => ""
  | arg :: args => quote arg ++ renderMore args

/-- The text of a fact. -/
def render (style : NameStyle) (fact : Fact) : String :=
  (match style with
    | .quoted => quote fact.relation.name
    | .bare => fact.relation.name)
    ++ "(" ++ renderArgs fact.args ++ ")."

/-- The text of a fact on a line of its own. -/
def line (style : NameStyle) (fact : Fact) : String :=
  fact.render style ++ "\n"

end Fact

/-! ## Sets of facts -/

/-- Facts in the order in which they were found. -/
structure FactSet where
  facts : Array Fact
deriving DecidableEq

namespace FactSet

/-- No facts. -/
def empty : FactSet := ⟨#[]⟩

/-- Adds a fact at the end. -/
def push (set : FactSet) (fact : Fact) : FactSet :=
  ⟨set.facts.push fact⟩

/-- The number of facts. -/
def size (set : FactSet) : Nat :=
  set.facts.size

/-- The fact at a position, if there is one. -/
def get? (set : FactSet) (index : Nat) : Option Fact :=
  set.facts[index]?

/-- The facts in order. -/
def toList (set : FactSet) : List Fact :=
  set.facts.toList

/-- The facts of one relation, in order. -/
def withRelation (set : FactSet) (relation : Relation) : List Fact :=
  set.toList.filter fun fact => fact.relation = relation

/-- All facts as a text, one to a line. -/
def render (style : NameStyle) (set : FactSet) : String :=
  set.facts.foldl (fun text fact => text ++ fact.line style) ""

@[simp] theorem toList_empty : empty.toList = [] := rfl

@[simp] theorem toList_push (set : FactSet) (fact : Fact) :
    (set.push fact).toList = set.toList ++ [fact] := by
  simp [push, toList]

theorem get?_eq (set : FactSet) (index : Nat) : set.get? index = set.toList[index]? :=
  Array.getElem?_toList.symm

theorem render_push (style : NameStyle) (set : FactSet) (fact : Fact) :
    (set.push fact).render style = set.render style ++ fact.line style := by
  simp [push, render]

end FactSet

end ScriptFacts
