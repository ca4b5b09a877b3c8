import ScriptFacts.Program.Grammar
import ScriptFacts.Program.Machine

/-!
# Recursive descent

The grammar as routines of a parsing machine, one for each form of statement and each layer of
expressions. A routine is told in `rounds` how often a loop of it may go round, and in `levels` how
deep its recursion may go; both are there so that it is a function, and it halts when they are used
up.
-/
namespace ScriptFacts.Descent

open Machine

/-! ## Lists -/

/-- Further items, each after a comma. -/
def more (inner : Machine Nat) : (rounds : Nat) → Machine (List Nat)
  | 0 => halt .outOfRounds
  | rounds + 1 => do
    if ← accept (.symbol .comma) then
      let item ← inner
      let items ← more inner rounds
      return item :: items
    else return []

/-- Items up to and including the closing mark. -/
def list (rounds : Nat) (inner : Machine Nat) (close : Symbol) (place : Place) :
    Machine (List Nat) := do
  if ← check (.symbol close) then
    demand close (.commaOr close place)
    return []
  else
    let first ← inner
    let items ← more inner rounds
    demand close (.commaOr close place)
    return first :: items

/-! ## Expressions -/

/-- An expression that no operator takes apart. -/
def atom (rounds : Nat) (inner : Machine Nat) : Machine Nat := do
  let slot ← peek
  match slot.token with
  | some (.symbol .openParen) => do
    let _ ← advance
    let handle ← inner
    demandAt .closeParen .afterParenthesized
    return handle
  | some (.symbol .openBracket) => do
    let _ ← advance
    let elements ← list rounds inner .closeBracket .inArray
    push (.array elements)
  | some (.int value) => do
    let _ ← advance
    push (.int value.repr)
  | some (.string text) => do
    let _ ← advance
    push (.string text)
  | some (.name text) => do
    let _ ← advance
    push (.var text)
  | _ => refuse (.part .expression)

/-- Index suffixes after a base. -/
def suffixes (inner : Machine Nat) : (rounds base : Nat) → Machine Nat
  | 0, _ => halt .outOfRounds
  | rounds + 1, base => do
    if ← accept (.symbol .openBracket) then
      let position ← inner
      demandAt .closeBracket .afterIndex
      let base ← push (.index base position)
      suffixes inner rounds base
    else return base

/-- An atom with its index suffixes. -/
def indexed (rounds : Nat) (inner : Machine Nat) : Machine Nat := do
  let base ← atom rounds inner
  suffixes inner rounds base

/-- Operators of a layer with their right operands, after a left one. -/
def operations (level : Level) (operand : Machine Nat) : (rounds left : Nat) → Machine Nat
  | 0, _ => halt .outOfRounds
  | rounds + 1, left => do
    let slot ← peek
    match (slot.token.bind Token.operator?).filter level.spellings.contains with
    | some op => do
      let _ ← advance
      let right ← operand
      let left ← push (.binary left op right)
      operations level operand rounds left
    | none => return left

/-- Operands of a layer with its operators between them. -/
def layer (rounds : Nat) (level : Level) (operand : Machine Nat) : Machine Nat := do
  let left ← operand
  operations level operand rounds left

/-- The layers that bind tighter than `not`. -/
def comparison (rounds : Nat) (inner : Machine Nat) : Machine Nat :=
  layer rounds .comparison (layer rounds .sum (layer rounds .product (indexed rounds inner)))

/-- The layers that bind looser than `not`. -/
def disjunction (rounds : Nat) (negation : Machine Nat) : Machine Nat :=
  layer rounds .disjunction (layer rounds .conjunction negation)

/-- A `not` with its operand, or else a comparison. -/
def prefixed (deeper comparison : Machine Nat) : Machine Nat := do
  if ← accept (.keyword .not) then
    let operand ← nested deeper
    push (.unary "not" operand)
  else comparison

/-- An operand of `and`. -/
def negation (rounds : Nat) : (levels : Nat) → Machine Nat
  | 0 => halt .outOfRounds
  | levels + 1 =>
    prefixed (negation rounds levels)
      (comparison rounds (nested (disjunction rounds (negation rounds levels))))

/-- An expression. -/
def expression (rounds levels : Nat) : Machine Nat :=
  nested (disjunction rounds (negation rounds levels))

/-! ## Statements -/

section Forms

variable (rounds : Nat) (expr inner : Machine Nat)

/-- What follows the word that heads a print statement. -/
def print : Machine Nat := do
  let value ← expr
  demandAt .semicolon .afterPrint
  push (.print value)

/-- Statements up to the brace that closes a block, which is passed as well. -/
def body : (rounds : Nat) → Machine (List Nat)
  | 0 => halt .outOfRounds
  | rounds + 1 => do
    if ← check (.symbol .closeBrace) then
      let _ ← advance
      return []
    else if ← isAtEnd then
      refuse (.part (.symbol .closeBrace .afterBlock))
    else
      let first ← inner
      let more ← body rounds
      return first :: more

/-- What follows the brace that opens a block. -/
def block : Machine Nat := do
  let stmts ← body inner rounds
  push (.block stmts)

/-- A parenthesized condition and the statement that it governs. -/
def guarded (word : Keyword) : Machine (Nat × Nat) := do
  demandAt .openParen (.afterWord word)
  let condition ← expr
  demandAt .closeParen (.afterCondition word)
  let governed ← inner
  return (condition, governed)

/-- What follows the word that heads a procedure definition. -/
def proc : Machine Nat := do
  let name ← demandName (.afterWord .proc)
  demandAt .openParen .afterProcedureName
  let parameters ← list rounds expr .closeParen .afterParameters
  let governed ← inner
  push (.proc name parameters governed)

/-- A call of the procedure whose name comes next. -/
def call (name : String) : Machine Nat := do
  let _ ← advance
  demandAt .openParen .afterProcedureName
  let arguments ← list rounds expr .closeParen .afterArguments
  demandAt .semicolon .afterCall
  push (.call name arguments)

/-- An assignment. -/
def assign : Machine Nat := do
  let target ← expr
  demandAt .equals .inAssignment
  let value ← expr
  demandAt .semicolon .afterAssignment
  push (.assign target value)

/-- A call or an assignment, whichever the next two tokens begin. -/
def callOrAssign : Machine Nat := do
  let slot ← peek
  match slot.token with
  | some (.name name) => do
    let ahead ← peekAhead 1
    if ahead.bind Slot.token = some (.symbol .openParen) then call rounds expr name
    else assign expr
  | _ => assign expr

/-- A statement whose parts are left to other machines. -/
def form : Machine Nat := do
  if ← accept (.keyword .print) then print expr
  else if ← accept (.symbol .openBrace) then block rounds inner
  else if ← accept (.keyword .cond) then
    let (condition, governed) ← guarded expr inner .cond
    push (.cond condition governed)
  else if ← accept (.keyword .loop) then
    let (condition, governed) ← guarded expr inner .loop
    push (.loop condition governed)
  else if ← accept (.keyword .proc) then proc rounds expr inner
  else callOrAssign rounds expr

end Forms

/-- A statement. -/
def statement (rounds : Nat) : (levels : Nat) → Machine Nat
  | 0 => halt .outOfRounds
  | levels + 1 => nested (form rounds (expression rounds levels) (statement rounds levels))

/-! ## All routines -/

/-- The routines that take part in reading a script. -/
inductive Routine
  | statement
  | form
  | print
  | block
  | guarded (word : Keyword)
  | proc
  | call (name : String)
  | assign
  | callOrAssign
  /-- Expressions up to a closing mark. -/
  | list (close : Symbol) (place : Place)
  /-- An expression of a layer. -/
  | expr (layer : Layer)
deriving DecidableEq, Repr

namespace Routine

/-- The kind of result that a routine has. -/
def Result : Routine → Type
  | guarded _ => Nat × Nat
  | list _ _ => List Nat
  | _ => Nat

/-- The routine for the expressions of a layer. -/
def ofLayer (rounds levels : Nat) : Layer → Machine Nat
  | .exp => expression rounds levels
  | .operators .disjunction => disjunction rounds (negation rounds levels)
  | .operators .conjunction => layer rounds .conjunction (negation rounds levels)
  | .operators .comparison => comparison rounds (expression rounds levels)
  | .operators .sum =>
    layer rounds .sum (layer rounds .product (indexed rounds (expression rounds levels)))
  | .operators .product => layer rounds .product (indexed rounds (expression rounds levels))
  | .negation => negation rounds levels
  | .indexed => indexed rounds (expression rounds levels)
  | .atom => atom rounds (expression rounds levels)

/-- A routine with the recursive ones at its disposal. -/
def run (rounds levels : Nat) : (routine : Routine) → Machine routine.Result
  | statement => Descent.statement rounds levels
  | form => Descent.form rounds (expression rounds levels) (Descent.statement rounds levels)
  | print => Descent.print (expression rounds levels)
  | block => Descent.block rounds (Descent.statement rounds levels)
  | guarded word =>
    Descent.guarded (expression rounds levels) (Descent.statement rounds levels) word
  | proc => Descent.proc rounds (expression rounds levels) (Descent.statement rounds levels)
  | call name => Descent.call rounds (expression rounds levels) name
  | assign => Descent.assign (expression rounds levels)
  | callOrAssign => Descent.callOrAssign rounds (expression rounds levels)
  | list close place => Descent.list rounds (expression rounds levels) close place
  | expr layer => ofLayer rounds levels layer

end Routine

/-! ## Scripts -/

/-- One statement and nothing else, as a program. -/
def program (rounds levels : Nat) : Machine Ast := do
  let root ← statement rounds levels
  if ← isAtEnd then finish root
  else refuse (.part .endOfInput)

/-- The program of a text, or why there is none. -/
def ofText (rounds levels limit : Nat) (text : List Char) : Except Halt Ast :=
  match TokenStream.ofText text with
  | .ok stream => (program rounds levels (.start limit stream)).1
  | .error error => .error (.refused error)

end ScriptFacts.Descent
