import ScriptFacts.Program.Refusal
import ScriptFacts.Program.Tree

/-!
# Reading expressions

The grammar, from the loosest binding to the tightest:

    exp   ::= or
    or    ::= and ("or" and)*
    and   ::= not ("and" not)*
    not   ::= "not" not | cmp
    cmp   ::= add (("==" | "<" | ">") add)*
    add   ::= mul (("+" | "-") mul)*
    mul   ::= index (("*" | "/") index)*
    index ::= atom ("[" exp "]")*
    atom  ::= "(" exp ")" | int | string | "[" (exp ("," exp)*)? "]" | name

Binary layers and index suffixes fold to the left. Each `exp` and each operand of a `not` takes one
level of a nesting budget, and the readers recurse on that budget. Everything between two levels is
read by functions that take the reader of the next level as an argument.

Loops take a list `rounds` that is only counted: a round reads at least one token, so the tokens
that remain when a loop starts are enough rounds, and a loop never ends for want of one.
-/
namespace ScriptFacts

namespace Expr

/-! ## Lists -/

/-- Reads further items, each after a comma. -/
def readMore (inner : Reader Expr) : (rounds : List Token) → Reader (List Expr)
  | _ :: rounds, .symbol .comma :: rest => do
    let (item, rest) ← inner rest
    let (items, rest) ← readMore inner rounds rest
    .ok (item :: items, rest)
  | _, tokens => .ok ([], tokens)

/-- Reads items up to and including the closing mark: none, or some with commas between them. -/
def readList (inner : Reader Expr) (close : Symbol) (place : Place) (tokens : List Token) :
    Except Refusal (List Expr × List Token) :=
  if tokens.head? = some (.symbol close) then .ok ([], tokens.tail)
  else do
    let (first, rest) ← inner tokens
    let (more, rest) ← readMore inner rest rest
    let rest ← expect close (.commaOr close place) rest
    .ok (first :: more, rest)

/-! ## Atoms and index suffixes -/

/-- Reads an expression that no operator takes apart. -/
def readAtom (inner : Reader Expr) : Reader Expr
  | .symbol .openParen :: rest => do
    let (expr, rest) ← inner rest
    let rest ← expectAt .closeParen .afterParenthesized rest
    .ok (expr, rest)
  | .symbol .openBracket :: rest => do
    let (elements, rest) ← readList inner .closeBracket .inArray rest
    .ok (.array elements, rest)
  | .int value :: rest => .ok (.int value, rest)
  | .string text :: rest => .ok (.string text, rest)
  | .name text :: rest => .ok (.var text, rest)
  | tokens => .error (.unexpected .expression tokens)

/-- Reads index suffixes after `base`. -/
def readSuffixes (inner : Reader Expr) : (rounds : List Token) → (base : Expr) → Reader Expr
  | _ :: rounds, base, .symbol .openBracket :: rest => do
    let (position, rest) ← inner rest
    let rest ← expectAt .closeBracket .afterIndex rest
    readSuffixes inner rounds (.index base position) rest
  | _, base, tokens => .ok (base, tokens)

/-- Reads an atom with its index suffixes. -/
def readIndexed (inner : Reader Expr) (tokens : List Token) :
    Except Refusal (Expr × List Token) := do
  let (base, rest) ← readAtom inner tokens
  readSuffixes inner rest base rest

/-! ## Binary layers -/

/-- Reads operators of a layer with their right operands after `left`. -/
def readOperations (level : Level) (operand : Reader Expr) :
    (rounds : List Token) → (left : Expr) → Reader Expr
  | _ :: rounds, left, token :: rest =>
    match BinaryOp.ofToken? level token with
    | some op => do
      let (right, rest) ← operand rest
      readOperations level operand rounds (.binary left op right) rest
    | none => .ok (left, token :: rest)
  | _, left, tokens => .ok (left, tokens)

/-- Reads operands of a layer with its operators between them. -/
def readLayer (level : Level) (operand : Reader Expr) (tokens : List Token) :
    Except Refusal (Expr × List Token) := do
  let (left, rest) ← operand tokens
  readOperations level operand rest left rest

/-- Reads the layers that bind tighter than `not`. -/
def readComparison (inner : Reader Expr) : Reader Expr :=
  readLayer .comparison (readLayer .sum (readLayer .product (readIndexed inner)))

/-- Reads the layers that bind looser than `not`. -/
def readDisjunction (negation : Reader Expr) : Reader Expr :=
  readLayer .disjunction (readLayer .conjunction negation)

/-! ## Nesting -/

/-- Reads a `not` with its operand, or else a comparison. -/
def readPrefixed (deeper comparison : Reader Expr) : Reader Expr
  | .keyword .not :: rest => do
    let (operand, rest) ← deeper rest
    .ok (.not operand, rest)
  | tokens => comparison tokens

/-- Refuses because no level of nesting is left. -/
def refuseDepth {α : Type} (tokens : List Token) :
    Except Refusal (α × List Token) :=
  .error (.tooDeep tokens)

/-- Reads an operand of `and`, with a budget for what is nested in it. -/
def readNegation : (budget : Nat) → Reader Expr
  | 0, tokens => readPrefixed refuseDepth (readComparison refuseDepth) tokens
  | budget + 1, tokens =>
    readPrefixed (readNegation budget)
      (readComparison (readDisjunction (readNegation budget))) tokens

/-- Reads an expression, which itself takes one level of the budget. -/
def read : (budget : Nat) → Reader Expr
  | 0, tokens => refuseDepth tokens
  | budget + 1, tokens => readDisjunction (readNegation budget) tokens

theorem readNegation_eq (budget : Nat) (tokens : List Token) :
    readNegation budget tokens
      = readPrefixed (match budget with | 0 => refuseDepth | b + 1 => readNegation b)
          (readComparison (read budget)) tokens := by
  cases budget <;> rfl

end Expr

end ScriptFacts
