import ScriptFacts.Arena.Basic
import ScriptFacts.Program.Source

/-!
# Reading into an arena

The grammar read in one pass, without a tree in between: a node is pushed as soon as its last part
has been read, and the parts are known by their handles. Parentheses push nothing, and the chains
of a layer push one node for each operator or suffix.

A builder takes the arena so far. What it gives is the arena with the nodes of what it read on top,
and the root among them: an `Ast`. The levels of nesting and the rounds of the loops are those of
the readers of trees.
-/
namespace ScriptFacts

/-- Adds a node, and marks it as the root. -/
def Arena.pushRoot (arena : Arena) (node : Node) : Ast where
  arena := (arena.push node).2
  root := (arena.push node).1
  root_lt := by simp [Arena.push, Arena.size]

/-- Takes the arena so far and the tokens that remain. -/
abbrev Builder (α : Type) := Arena → Reader α

namespace Expr

/-! ## Lists -/

/-- Builds further items, each after a comma. -/
def buildMore (inner : Builder Ast) : (rounds : List Token) → Builder (List Nat × Arena)
  | _ :: rounds, arena, .symbol .comma :: rest => do
    let (item, rest) ← inner arena rest
    let ((items, arena), rest) ← buildMore inner rounds item.arena rest
    .ok ((item.root :: items, arena), rest)
  | _, arena, tokens => .ok (([], arena), tokens)

/-- Builds items up to and including the closing mark. -/
def buildList (inner : Builder Ast) (close : Symbol) (place : Place) (arena : Arena)
    (tokens : List Token) : Except Refusal ((List Nat × Arena) × List Token) :=
  if tokens.head? = some (.symbol close) then .ok (([], arena), tokens.tail)
  else do
    let (first, rest) ← inner arena tokens
    let ((more, arena), rest) ← buildMore inner rest first.arena rest
    let rest ← expect close (.commaOr close place) rest
    .ok ((first.root :: more, arena), rest)

/-! ## Atoms and index suffixes -/

/-- Builds an expression that no operator takes apart. -/
def buildAtom (inner : Builder Ast) : Builder Ast
  | arena, .symbol .openParen :: rest => do
    let (ast, rest) ← inner arena rest
    let rest ← expectAt .closeParen .afterParenthesized rest
    .ok (ast, rest)
  | arena, .symbol .openBracket :: rest => do
    let ((elements, arena), rest) ← buildList inner .closeBracket .inArray arena rest
    .ok (arena.pushRoot (.array elements), rest)
  | arena, .int value :: rest => .ok (arena.pushRoot (.int value.repr), rest)
  | arena, .string text :: rest => .ok (arena.pushRoot (.string text), rest)
  | arena, .name text :: rest => .ok (arena.pushRoot (.var text), rest)
  | _, tokens => .error (.unexpected .expression tokens)

/-- Builds index suffixes on top of `base`. -/
def buildSuffixes (inner : Builder Ast) : (rounds : List Token) → (base : Ast) → Reader Ast
  | _ :: rounds, base, .symbol .openBracket :: rest => do
    let (position, rest) ← inner base.arena rest
    let rest ← expectAt .closeBracket .afterIndex rest
    buildSuffixes inner rounds (position.arena.pushRoot (.index base.root position.root)) rest
  | _, base, tokens => .ok (base, tokens)

/-- Builds an atom with its index suffixes. -/
def buildIndexed (inner : Builder Ast) (arena : Arena) (tokens : List Token) :
    Except Refusal (Ast × List Token) := do
  let (base, rest) ← buildAtom inner arena tokens
  buildSuffixes inner rest base rest

/-! ## Binary layers -/

/-- Builds operators of a layer with their right operands on top of `left`. -/
def buildOperations (level : Level) (operand : Builder Ast) :
    (rounds : List Token) → (left : Ast) → Reader Ast
  | _ :: rounds, left, token :: rest =>
    match BinaryOp.ofToken? level token with
    | some op => do
      let (right, rest) ← operand left.arena rest
      buildOperations level operand rounds
        (right.arena.pushRoot (.binary left.root op.spelling right.root)) rest
    | none => .ok (left, token :: rest)
  | _, left, tokens => .ok (left, tokens)

/-- Builds operands of a layer with its operators between them. -/
def buildLayer (level : Level) (operand : Builder Ast) (arena : Arena) (tokens : List Token) :
    Except Refusal (Ast × List Token) := do
  let (left, rest) ← operand arena tokens
  buildOperations level operand rest left rest

/-- Builds the layers that bind tighter than `not`. -/
def buildComparison (inner : Builder Ast) : Builder Ast :=
  buildLayer .comparison (buildLayer .sum (buildLayer .product (buildIndexed inner)))

/-- Builds the layers that bind looser than `not`. -/
def buildDisjunction (negation : Builder Ast) : Builder Ast :=
  buildLayer .disjunction (buildLayer .conjunction negation)

/-! ## Nesting -/

/-- Builds a `not` with its operand, or else a comparison. -/
def buildPrefixed (deeper comparison : Builder Ast) : Builder Ast
  | arena, .keyword .not :: rest => do
    let (operand, rest) ← deeper arena rest
    .ok (operand.arena.pushRoot (.unary "not" operand.root), rest)
  | arena, tokens => comparison arena tokens

/-- Builds an operand of `and`, with a budget for what is nested in it. -/
def buildNegation : (budget : Nat) → Builder Ast
  | 0, arena, tokens =>
    buildPrefixed (fun _ => refuseDepth) (buildComparison fun _ => refuseDepth) arena tokens
  | budget + 1, arena, tokens =>
    buildPrefixed (buildNegation budget)
      (buildComparison (buildDisjunction (buildNegation budget))) arena tokens

/-- Builds an expression, which itself takes one level of the budget. -/
def build : (budget : Nat) → Builder Ast
  | 0, _, tokens => refuseDepth tokens
  | budget + 1, arena, tokens => buildDisjunction (buildNegation budget) arena tokens

end Expr

namespace Stmt

/-! ## Statements -/

/-- Builds statements up to and including the brace that closes a block. -/
def buildBlock (inner : Builder Ast) : (rounds : List Token) → Builder (List Nat × Arena)
  | _ :: _, arena, .symbol .closeBrace :: rest => .ok (([], arena), rest)
  | _ :: rounds, arena, token :: rest => do
    let (first, rest) ← inner arena (token :: rest)
    let ((more, arena), rest) ← buildBlock inner rounds first.arena rest
    .ok ((first.root :: more, arena), rest)
  | _, _, tokens => .error (.unexpected (.symbol .closeBrace .afterBlock) tokens)

/-- Builds a parenthesized condition, known by its handle, and the statement that it governs. -/
def buildGuarded (expr inner : Builder Ast) (word : Keyword) (arena : Arena)
    (tokens : List Token) : Except Refusal ((Nat × Ast) × List Token) := do
  let rest ← expectAt .openParen (.afterWord word) tokens
  let (condition, rest) ← expr arena rest
  let rest ← expectAt .closeParen (.afterCondition word) rest
  let (body, rest) ← inner condition.arena rest
  .ok ((condition.root, body), rest)

/-- Builds what follows the word that heads a procedure definition. -/
def buildProc (expr inner : Builder Ast) : Builder Ast
  | arena, .name name :: rest => do
    let rest ← expectAt .openParen .afterProcedureName rest
    let ((parameters, arena), rest) ← Expr.buildList expr .closeParen .afterParameters arena rest
    let (body, rest) ← inner arena rest
    .ok (body.arena.pushRoot (.proc name parameters body.root), rest)
  | _, tokens => .error (.unexpected (.name (.afterWord .proc)) tokens)

/-- Builds the arguments and the end of a call. -/
def buildCall (expr : Builder Ast) (name : String) (arena : Arena) (tokens : List Token) :
    Except Refusal (Ast × List Token) := do
  let ((arguments, arena), rest) ← Expr.buildList expr .closeParen .afterArguments arena tokens
  let rest ← expectAt .semicolon .afterCall rest
  .ok (arena.pushRoot (.call name arguments), rest)

/-- Builds an assignment. -/
def buildAssign (expr : Builder Ast) (arena : Arena) (tokens : List Token) :
    Except Refusal (Ast × List Token) := do
  let (target, rest) ← expr arena tokens
  let rest ← expectAt .equals .inAssignment rest
  let (value, rest) ← expr target.arena rest
  let rest ← expectAt .semicolon .afterAssignment rest
  .ok (value.arena.pushRoot (.assign target.root value.root), rest)

/-- Builds a statement whose parts are built by `expr` and `inner`. -/
def buildForm (expr inner : Builder Ast) : Builder Ast
  | arena, .keyword .print :: rest => do
    let (value, rest) ← expr arena rest
    let rest ← expectAt .semicolon .afterPrint rest
    .ok (value.arena.pushRoot (.print value.root), rest)
  | arena, .symbol .openBrace :: rest => do
    let ((body, arena), rest) ← buildBlock inner rest arena rest
    .ok (arena.pushRoot (.block body), rest)
  | arena, .keyword .cond :: rest => do
    let ((condition, body), rest) ← buildGuarded expr inner .cond arena rest
    .ok (body.arena.pushRoot (.cond condition body.root), rest)
  | arena, .keyword .loop :: rest => do
    let ((condition, body), rest) ← buildGuarded expr inner .loop arena rest
    .ok (body.arena.pushRoot (.loop condition body.root), rest)
  | arena, .keyword .proc :: rest => buildProc expr inner arena rest
  | arena, .name name :: .symbol .openParen :: rest => buildCall expr name arena rest
  | arena, tokens => buildAssign expr arena tokens

/-- Builds a statement, which takes one level of the budget. -/
def build : (budget : Nat) → Builder Ast
  | 0, _, tokens => Expr.refuseDepth tokens
  | budget + 1, arena, tokens => buildForm (Expr.build budget) (build budget) arena tokens

end Stmt

namespace Ast

/-! ## Scripts -/

/-- Builds the program of tokens that are one statement and nothing else. -/
def ofTokens (limit : Nat) (tokens : List Token) : Except Refusal Ast := do
  let (ast, rest) ← Stmt.build limit .empty tokens
  match rest with
  | [] => .ok ast
  | _ :: _ => .error (.unexpected .endOfInput rest)

/-- The program that a stream of tokens denotes. -/
def ofStream (limit : Nat) (stream : TokenStream) : Except SyntaxError Ast :=
  (ofTokens limit stream.tokens).mapError (stream.errorOf limit)

/-- The program that a text denotes. -/
def ofText (limit : Nat) (text : List Char) : Except SyntaxError Ast := do
  let stream ← TokenStream.ofText text
  ofStream limit stream

end Ast

end ScriptFacts
