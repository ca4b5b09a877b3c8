import ScriptFacts.Program.ExprReader

/-!
# Reading statements

    stmt ::= "print" exp ";"
           | exp "=" exp ";"
           | "{" stmt* "}"
           | "if" "(" exp ")" stmt
           | "while" "(" exp ")" stmt
           | "def" name "(" (exp ("," exp)*)? ")" stmt
           | name "(" (exp ("," exp)*)? ")" ";"

The first token decides the form, and for a name the second: a name before a parenthesis begins a
call. Each statement takes one level of the nesting budget.
-/
namespace ScriptFacts

namespace Stmt

/-- Reads statements up to and including the brace that closes a block. -/
def readBlock (inner : Reader Stmt) : (rounds : List Token) → Reader (List Stmt)
  | _ :: _, .symbol .closeBrace :: rest => .ok ([], rest)
  | _ :: rounds, token :: rest => do
    let (first, rest) ← inner (token :: rest)
    let (more, rest) ← readBlock inner rounds rest
    .ok (first :: more, rest)
  | _, tokens => .error (.unexpected (.symbol .closeBrace .afterBlock) tokens)

/-- Reads a parenthesized condition and the statement that it governs. -/
def readGuarded (expr : Reader Expr) (inner : Reader Stmt) (word : Keyword) (tokens : List Token) :
    Except Refusal ((Expr × Stmt) × List Token) := do
  let rest ← expectAt .openParen (.afterWord word) tokens
  let (condition, rest) ← expr rest
  let rest ← expectAt .closeParen (.afterCondition word) rest
  let (body, rest) ← inner rest
  .ok ((condition, body), rest)

/-- Reads what follows the word that heads a procedure definition. -/
def readProc (expr : Reader Expr) (inner : Reader Stmt) : Reader Stmt
  | .name name :: rest => do
    let rest ← expectAt .openParen .afterProcedureName rest
    let (parameters, rest) ← Expr.readList expr .closeParen .afterParameters rest
    let (body, rest) ← inner rest
    .ok (.proc name parameters body, rest)
  | tokens => .error (.unexpected (.name (.afterWord .proc)) tokens)

/-- Reads the arguments and the end of a call. -/
def readCall (expr : Reader Expr) (name : String) (tokens : List Token) :
    Except Refusal (Stmt × List Token) := do
  let (arguments, rest) ← Expr.readList expr .closeParen .afterArguments tokens
  let rest ← expectAt .semicolon .afterCall rest
  .ok (.call name arguments, rest)

/-- Reads an assignment. -/
def readAssign (expr : Reader Expr) (tokens : List Token) :
    Except Refusal (Stmt × List Token) := do
  let (target, rest) ← expr tokens
  let rest ← expectAt .equals .inAssignment rest
  let (value, rest) ← expr rest
  let rest ← expectAt .semicolon .afterAssignment rest
  .ok (.assign target value, rest)

/-- Reads a statement whose parts are read by `expr` and `inner`. -/
def readForm (expr : Reader Expr) (inner : Reader Stmt) : Reader Stmt
  | .keyword .print :: rest => do
    let (value, rest) ← expr rest
    let rest ← expectAt .semicolon .afterPrint rest
    .ok (.print value, rest)
  | .symbol .openBrace :: rest => do
    let (body, rest) ← readBlock inner rest rest
    .ok (.block body, rest)
  | .keyword .cond :: rest => do
    let ((condition, body), rest) ← readGuarded expr inner .cond rest
    .ok (.cond condition body, rest)
  | .keyword .loop :: rest => do
    let ((condition, body), rest) ← readGuarded expr inner .loop rest
    .ok (.loop condition body, rest)
  | .keyword .proc :: rest => readProc expr inner rest
  | .name name :: .symbol .openParen :: rest => readCall expr name rest
  | tokens => readAssign expr tokens

/-- Reads a statement, which takes one level of the budget. -/
def read : (budget : Nat) → Reader Stmt
  | 0, tokens => Expr.refuseDepth tokens
  | budget + 1, tokens => readForm (Expr.read budget) (read budget) tokens

/-- Reads tokens that are one statement and nothing else. -/
def ofTokens (limit : Nat) (tokens : List Token) : Except Refusal Stmt := do
  let (stmt, rest) ← read limit tokens
  match rest with
  | [] => .ok stmt
  | _ :: _ => .error (.unexpected .endOfInput rest)

end Stmt

end ScriptFacts
