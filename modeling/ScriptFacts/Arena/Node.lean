/-!
# Nodes

The records of which a stored program consists. A node has one of fourteen kinds, and its
children are handles: numbers that say at which positions of the arena they stand. Handles are not
checked here, so a node may name a child that does not exist.

* `Node.length_fields`: a node has one field for each field name of its kind.
* `Node.ofFields?_fields`: a node can be told from its kind and its fields.
-/
namespace ScriptFacts

/-! ## Kinds -/

/-- The kind of a node. -/
inductive Kind
  | var
  | int
  | string
  | array
  | index
  | binary
  | unary
  | print
  | assign
  | block
  | cond
  | loop
  | proc
  | call
deriving DecidableEq, Repr

namespace Kind

/-- The name under which nodes of a kind are written. -/
def name : Kind → String
  | var => "Var"
  | int => "Int"
  | string => "String"
  | array => "Array"
  | index => "Index"
  | binary => "BinOpExp"
  | unary => "UniOpExp"
  | print => "Print"
  | assign => "Assign"
  | block => "Block"
  | cond => "If"
  | loop => "While"
  | proc => "Def"
  | call => "Call"

/-- The names of the fields of a kind, in the order in which they are written. -/
def fieldNames : Kind → List String
  | var => ["name"]
  | int | string => ["value"]
  | array => ["elements"]
  | index => ["indexable", "index"]
  | binary => ["left", "op", "right"]
  | unary => ["op", "arg"]
  | print => ["exp"]
  | assign => ["left", "right"]
  | block => ["stmts"]
  | cond | loop => ["exp", "stmt"]
  | proc => ["name", "params", "body"]
  | call => ["name", "args"]

/-- Every kind once. -/
def all : List Kind :=
  [var, int, string, array, index, binary, unary, print, assign, block, cond, loop, proc, call]

theorem mem_all (kind : Kind) : kind ∈ all := by
  cases kind <;> decide

/-- The kind of a name, if any. -/
def ofName? (name : String) : Option Kind :=
  all.find? fun kind => kind.name = name

theorem ofName?_name (kind : Kind) : ofName? kind.name = some kind := by
  cases kind <;> decide

theorem name_injective {a b : Kind} (h : a.name = b.name) : a = b := by
  have := congrArg ofName? h
  simpa [ofName?_name] using this

end Kind

/-! ## Fields -/

/-- The value of a field, over children of type `α`. -/
inductive Field (α : Type)
  /-- The digits of an integer. -/
  | digits (text : String)
  /-- Any other text. -/
  | text (text : String)
  /-- One child. -/
  | child (child : α)
  /-- A sequence of children. -/
  | children (children : List α)
deriving DecidableEq, Repr

/-! ## Nodes -/

/-- One record of a stored program. -/
inductive Node
  | var (name : String)
  | int (value : String)
  | string (value : String)
  | array (elements : List Nat)
  | index (base position : Nat)
  | binary (left : Nat) (op : String) (right : Nat)
  | unary (op : String) (operand : Nat)
  | print (value : Nat)
  | assign (target value : Nat)
  | block (body : List Nat)
  | cond (condition body : Nat)
  | loop (condition body : Nat)
  | proc (name : String) (parameters : List Nat) (body : Nat)
  | call (name : String) (arguments : List Nat)
deriving DecidableEq, Repr

namespace Node

/-- The kind of a node. -/
def kind : Node → Kind
  | var .. => .var
  | int .. => .int
  | string .. => .string
  | array .. => .array
  | index .. => .index
  | binary .. => .binary
  | unary .. => .unary
  | print .. => .print
  | assign .. => .assign
  | block .. => .block
  | cond .. => .cond
  | loop .. => .loop
  | proc .. => .proc
  | call .. => .call

/-- The fields of a node, in the order of the field names of its kind. -/
def fields : Node → List (Field Nat)
  | var name => [.text name]
  | int value => [.digits value]
  | string value => [.text value]
  | array elements => [.children elements]
  | index base position => [.child base, .child position]
  | binary left op right => [.child left, .text op, .child right]
  | unary op operand => [.text op, .child operand]
  | print value => [.child value]
  | assign target value => [.child target, .child value]
  | block body => [.children body]
  | cond condition body => [.child condition, .child body]
  | loop condition body => [.child condition, .child body]
  | proc name parameters body => [.text name, .children parameters, .child body]
  | call name arguments => [.text name, .children arguments]

theorem length_fields (node : Node) : node.fields.length = node.kind.fieldNames.length := by
  cases node <;> rfl

/-- The node of a kind with the given fields, if they are fields of that kind. -/
def ofFields? : Kind → List (Field Nat) → Option Node
  | .var, [.text name] => some (var name)
  | .int, [.digits value] => some (int value)
  | .string, [.text value] => some (string value)
  | .array, [.children elements] => some (array elements)
  | .index, [.child base, .child position] => some (index base position)
  | .binary, [.child left, .text op, .child right] => some (binary left op right)
  | .unary, [.text op, .child operand] => some (unary op operand)
  | .print, [.child value] => some (print value)
  | .assign, [.child target, .child value] => some (assign target value)
  | .block, [.children body] => some (block body)
  | .cond, [.child condition, .child body] => some (cond condition body)
  | .loop, [.child condition, .child body] => some (loop condition body)
  | .proc, [.text name, .children parameters, .child body] => some (proc name parameters body)
  | .call, [.text name, .children arguments] => some (call name arguments)
  | _, _ => none

theorem ofFields?_fields (node : Node) : ofFields? node.kind node.fields = some node := by
  cases node <;> rfl

end Node

end ScriptFacts
