import Mathlib.Data.List.Forall2
import ScriptFacts.Arena.Term
import ScriptFacts.Token.Grammar

/-!
# Signatures

What the fields of each kind hold: texts of some sort, one expression or statement, or a sequence of
them. A term that keeps to the signatures all the way down is the tree of a script, whether or not
any script was read to get it. In an arena nothing keeps a handle from leading to a node of the
wrong phrase, so an arena may keep to the signatures or not.

* `Leaf.Admits`: the texts that can stand in a text field.
* `Term.Fits`: the terms that keep to the signatures.
* `Arena.WellSorted`: the arenas whose nodes all do.
-/
namespace ScriptFacts

/-- What a node is part of a script as. -/
inductive Phrase
  | expr
  | stmt
deriving DecidableEq, Repr

/-- What a text in a node is. -/
inductive Leaf
  | name
  | numeral
  | string
  /-- An operator between two operands. -/
  | operator
  /-- The operator before one operand. -/
  | negation
deriving DecidableEq, Repr

/-- What stands in a field. -/
inductive FieldSort
  | leaf (leaf : Leaf)
  | one (phrase : Phrase)
  | many (phrase : Phrase)
deriving DecidableEq, Repr

namespace Kind

/-- What the nodes of a kind are. -/
def phrase : Kind → Phrase
  | var | int | string | array | index | binary | unary => .expr
  | print | assign | block | cond | loop | proc | call => .stmt

/-- What stands in the fields of a kind, in the order of their names. Anything that is assigned to,
and any parameter of a procedure, is an expression. -/
def signature : Kind → List FieldSort
  | var => [.leaf .name]
  | int => [.leaf .numeral]
  | string => [.leaf .string]
  | array => [.many .expr]
  | index => [.one .expr, .one .expr]
  | binary => [.one .expr, .leaf .operator, .one .expr]
  | unary => [.leaf .negation, .one .expr]
  | print => [.one .expr]
  | assign => [.one .expr, .one .expr]
  | block => [.many .stmt]
  | cond | loop => [.one .expr, .one .stmt]
  | proc => [.leaf .name, .many .expr, .one .stmt]
  | call => [.leaf .name, .many .expr]

theorem length_signature (kind : Kind) : kind.signature.length = kind.fieldNames.length := by
  cases kind <;> rfl

end Kind

/-- The texts that can stand in a text field: a name is no keyword, a numeral has no zero in front
unless it is zero, and a string has no quote in it. -/
def Leaf.Admits : Leaf → String → Prop
  | name, text => Spells text.toList (.name text)
  | numeral, text =>
    text ≠ "" ∧ (∀ c ∈ text.toList, c.isDigit = true) ∧
      (text.toList.head? = some '0' → text = "0")
  | string, text => '"' ∉ text.toList
  | operator, text => text ∈ ["or", "and", "==", "<", ">", "+", "-", "*", "/"]
  | negation, text => text = "not"

/-- How a text in a node is written. -/
def Leaf.term : Leaf → String → Term
  | numeral, text => .bare text
  | name, text | string, text | operator, text | negation, text => .quoted text

/-- A term is what a field of a sort can hold, and so are the fields of all nodes in it. -/
inductive Term.Fits : FieldSort → Term → Prop
  | leaf {leaf : Leaf} {text : String} (htext : leaf.Admits text) :
    Fits (.leaf leaf) (leaf.term text)
  | list {phrase : Phrase} {items : List Term} (hitems : ∀ item ∈ items, Fits (.one phrase) item) :
    Fits (.many phrase) (.list items)
  | node {phrase : Phrase} {kind : Kind} {fields : List Term} (hphrase : kind.phrase = phrase)
    (hlength : fields.length = kind.signature.length)
    (hfields : ∀ field ∈ kind.signature.zip fields, Fits field.1 field.2) :
    Fits (.one phrase) (.node kind fields)

/-- A handle leads to a node of a phrase. -/
def Arena.LeadsTo (arena : Arena) (phrase : Phrase) (handle : Nat) : Prop :=
  ∃ node, arena.get? handle = some node ∧ node.kind.phrase = phrase

/-- A field holds what its sort asks for: an integer its digits, any other leaf a text, and a field
for phrases the handles of nodes of that phrase. -/
inductive Field.Suits (arena : Arena) : FieldSort → Field Nat → Prop
  | digits {text : String} (htext : Leaf.numeral.Admits text) :
    Suits arena (.leaf .numeral) (.digits text)
  | text {leaf : Leaf} {text : String} (hleaf : leaf ≠ .numeral) (htext : leaf.Admits text) :
    Suits arena (.leaf leaf) (.text text)
  | child {phrase : Phrase} {handle : Nat} (hhandle : arena.LeadsTo phrase handle) :
    Suits arena (.one phrase) (.child handle)
  | children {phrase : Phrase} {handles : List Nat}
    (hhandles : ∀ handle ∈ handles, arena.LeadsTo phrase handle) :
    Suits arena (.many phrase) (.children handles)

/-- The fields of every node hold what the signature of its kind says. -/
def Arena.WellSorted (arena : Arena) : Prop :=
  ∀ handle node, arena.get? handle = some node →
    List.Forall₂ (Field.Suits arena) node.kind.signature node.fields

end ScriptFacts
