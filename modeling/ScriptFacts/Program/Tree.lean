import ScriptFacts.Token.Basic

/-!
# Statements and expressions

The trees that scripts denote. Parentheses leave no trace in a tree; any expression may stand as
the target of an assignment or as a parameter of a procedure.

* `BinaryOp.ofToken?_eq_some_iff`: an operator is read from its own token and from no other.
* `BinaryOp.spelling_ofToken?`: which tokens are operators of a layer, their spelling tells.
-/
namespace ScriptFacts

/-! ## Operators -/

/-- The layers of binary operators, from the loosest to the tightest. -/
inductive Level
  | disjunction
  | conjunction
  | comparison
  | sum
  | product
deriving DecidableEq, Repr

/-- The spellings of the operators of a layer. -/
def Level.spellings : Level → List String
  | disjunction => ["or"]
  | conjunction => ["and"]
  | comparison => ["==", "<", ">"]
  | sum => ["+", "-"]
  | product => ["*", "/"]

/-- An operator between two expressions. -/
inductive BinaryOp
  | or
  | and
  | equal
  | less
  | greater
  | add
  | sub
  | mul
  | div
deriving DecidableEq, Repr

namespace BinaryOp

/-- The layer to which an operator belongs. -/
def level : BinaryOp → Level
  | or => .disjunction
  | and => .conjunction
  | equal | less | greater => .comparison
  | add | sub => .sum
  | mul | div => .product

/-- The token that stands for an operator. -/
def token : BinaryOp → Token
  | or => .keyword .or
  | and => .keyword .and
  | equal => .symbol .doubleEquals
  | less => .symbol .less
  | greater => .symbol .greater
  | add => .symbol .plus
  | sub => .symbol .minus
  | mul => .symbol .star
  | div => .symbol .slash

/-- The text of an operator. -/
def spelling : BinaryOp → String
  | or => "or"
  | and => "and"
  | equal => "=="
  | less => "<"
  | greater => ">"
  | add => "+"
  | sub => "-"
  | mul => "*"
  | div => "/"

/-- Every binary operator once. -/
def all : List BinaryOp := [or, and, equal, less, greater, add, sub, mul, div]

theorem mem_all (op : BinaryOp) : op ∈ all := by
  cases op <;> decide

/-- The operator of a layer that a token stands for, if any. -/
def ofToken? (level : Level) (token : Token) : Option BinaryOp :=
  all.find? fun op => op.level = level ∧ op.token = token

theorem ofToken?_eq_some_iff {level : Level} {token : Token} {op : BinaryOp} :
    ofToken? level token = some op ↔ op.level = level ∧ op.token = token := by
  constructor
  · intro h
    simpa using List.find?_some h
  · rintro ⟨rfl, rfl⟩
    cases op <;> decide

/-- The operators of a layer are the tokens with a spelling among those of the layer. -/
theorem spelling_ofToken? (level : Level) (token : Token) :
    (ofToken? level token).map spelling = token.operator?.filter level.spellings.contains := by
  cases token with
  | int _ | string _ | name _ => cases level <;> rfl
  | keyword word => cases level <;> cases word <;> rfl
  | symbol mark => cases level <;> cases mark <;> rfl

end BinaryOp

/-! ## Trees -/

/-- An expression. -/
inductive Expr
  | var (name : String)
  | int (value : Nat)
  | string (text : String)
  | array (elements : List Expr)
  | index (base position : Expr)
  | binary (left : Expr) (op : BinaryOp) (right : Expr)
  | not (operand : Expr)
deriving Repr, Inhabited

/-- A statement. A script is one statement. -/
inductive Stmt
  | print (value : Expr)
  | assign (target value : Expr)
  | block (body : List Stmt)
  | cond (condition : Expr) (body : Stmt)
  | loop (condition : Expr) (body : Stmt)
  | proc (name : String) (parameters : List Expr) (body : Stmt)
  | call (name : String) (arguments : List Expr)
deriving Repr, Inhabited

end ScriptFacts
