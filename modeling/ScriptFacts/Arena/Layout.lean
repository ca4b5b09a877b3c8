import ScriptFacts.Arena.Basic
import ScriptFacts.Program.Tree

/-!
# Laying programs out

A statement is laid out by adding its nodes to an arena in post-order: the children in field order,
the items of a list in list order, and then the node itself. So the root of a program is the last
node of its arena.
-/
namespace ScriptFacts

/-! ## Expressions -/

mutual

/-- Adds the nodes of an expression, and tells the handle of its root. -/
def Expr.layOut : Expr → Arena → Nat × Arena
  | .var name, arena => arena.push (.var name)
  | .int value, arena => arena.push (.int value.repr)
  | .string text, arena => arena.push (.string text)
  | .array elements, arena =>
    let (elements, arena) := layOutAll elements arena
    arena.push (.array elements)
  | .index base position, arena =>
    let (base, arena) := base.layOut arena
    let (position, arena) := position.layOut arena
    arena.push (.index base position)
  | .binary left op right, arena =>
    let (left, arena) := left.layOut arena
    let (right, arena) := right.layOut arena
    arena.push (.binary left op.spelling right)
  | .not operand, arena =>
    let (operand, arena) := operand.layOut arena
    arena.push (.unary "not" operand)

/-- Adds the nodes of several expressions, one after the other. -/
def Expr.layOutAll : List Expr → Arena → List Nat × Arena
  | [], arena => ([], arena)
  | expr :: exprs, arena =>
    let (first, arena) := expr.layOut arena
    let (more, arena) := layOutAll exprs arena
    (first :: more, arena)

end

/-! ## Statements -/

mutual

/-- Adds the nodes of a statement, and tells the handle of its root. -/
def Stmt.layOut : Stmt → Arena → Nat × Arena
  | .print value, arena =>
    let (value, arena) := value.layOut arena
    arena.push (.print value)
  | .assign target value, arena =>
    let (target, arena) := target.layOut arena
    let (value, arena) := value.layOut arena
    arena.push (.assign target value)
  | .block body, arena =>
    let (body, arena) := layOutAll body arena
    arena.push (.block body)
  | .cond condition body, arena =>
    let (condition, arena) := condition.layOut arena
    let (body, arena) := body.layOut arena
    arena.push (.cond condition body)
  | .loop condition body, arena =>
    let (condition, arena) := condition.layOut arena
    let (body, arena) := body.layOut arena
    arena.push (.loop condition body)
  | .proc name parameters body, arena =>
    let (parameters, arena) := Expr.layOutAll parameters arena
    let (body, arena) := body.layOut arena
    arena.push (.proc name parameters body)
  | .call name arguments, arena =>
    let (arguments, arena) := Expr.layOutAll arguments arena
    arena.push (.call name arguments)

/-- Adds the nodes of several statements, one after the other. -/
def Stmt.layOutAll : List Stmt → Arena → List Nat × Arena
  | [], arena => ([], arena)
  | stmt :: stmts, arena =>
    let (first, arena) := stmt.layOut arena
    let (more, arena) := layOutAll stmts arena
    (first :: more, arena)

end

/-- The root of a statement is the last node added for it. -/
theorem Stmt.layOut_root (stmt : Stmt) (arena : Arena) :
    (stmt.layOut arena).1 + 1 = (stmt.layOut arena).2.size := by
  cases stmt <;> simp [Stmt.layOut, Arena.push, Arena.size]

/-- The program of a statement, laid out from an empty arena. -/
def Stmt.toAst (stmt : Stmt) : Ast where
  arena := (stmt.layOut .empty).2
  root := (stmt.layOut .empty).1
  root_lt := by have := stmt.layOut_root .empty; omega

end ScriptFacts
