import ScriptFacts.Program.Tree

/-!
# Printing

The tokens of a tree, with parentheses around every operand that is not a single atom, and the text
of tokens, a space after each.
-/
namespace ScriptFacts

/-! ## The tokens of trees -/

/-- Tokens between parentheses. -/
def parenthesize (tokens : List Token) : List Token :=
  .symbol .openParen :: tokens ++ [.symbol .closeParen]

/-- Whether an expression can stand as an operand without parentheses. -/
def Expr.isAtom : Expr → Bool
  | .var _ | .int _ | .string _ | .array _ => true
  | .index .. | .binary .. | .not _ => false

/-- Joins the tokens of items with commas. -/
def separate : List (List Token) → List Token
  | [] => []
  | [item] => item
  | item :: items => item ++ .symbol .comma :: separate items

mutual

/-- The tokens of an expression. -/
def Expr.tokens : Expr → List Token
  | .var name => [.name name]
  | .int value => [.int value]
  | .string text => [.string text]
  | .array elements =>
    .symbol .openBracket :: separate (Expr.tokensAll elements) ++ [.symbol .closeBracket]
  | .index base position =>
    base.operandTokens ++ .symbol .openBracket :: position.tokens ++ [.symbol .closeBracket]
  | .binary left op right => left.operandTokens ++ op.token :: right.operandTokens
  | .not operand => .keyword .not :: operand.operandTokens

/-- The tokens of an expression that is an operand. -/
def Expr.operandTokens : Expr → List Token
  | .var name => [.name name]
  | .int value => [.int value]
  | .string text => [.string text]
  | .array elements =>
    .symbol .openBracket :: separate (Expr.tokensAll elements) ++ [.symbol .closeBracket]
  | .index base position =>
    parenthesize
      (base.operandTokens ++ .symbol .openBracket :: position.tokens ++ [.symbol .closeBracket])
  | .binary left op right =>
    parenthesize (left.operandTokens ++ op.token :: right.operandTokens)
  | .not operand => parenthesize (.keyword .not :: operand.operandTokens)

/-- The tokens of several expressions. -/
def Expr.tokensAll : List Expr → List (List Token)
  | [] => []
  | expr :: exprs => expr.tokens :: Expr.tokensAll exprs

end

/-- An operand is printed as it is, or between parentheses if it is compound. -/
theorem Expr.operandTokens_eq (expr : Expr) :
    expr.operandTokens = if expr.isAtom then expr.tokens else parenthesize expr.tokens := by
  cases expr <;> simp [operandTokens, tokens, isAtom]

mutual

/-- The tokens of a statement. -/
def Stmt.tokens : Stmt → List Token
  | .print value => .keyword .print :: value.tokens ++ [.symbol .semicolon]
  | .assign target value =>
    target.tokens ++ .symbol .equals :: value.tokens ++ [.symbol .semicolon]
  | .block body => .symbol .openBrace :: Stmt.tokensAll body ++ [.symbol .closeBrace]
  | .cond condition body => .keyword .cond :: parenthesize condition.tokens ++ body.tokens
  | .loop condition body => .keyword .loop :: parenthesize condition.tokens ++ body.tokens
  | .proc name parameters body =>
    .keyword .proc :: .name name :: parenthesize (separate (Expr.tokensAll parameters))
      ++ body.tokens
  | .call name arguments =>
    .name name :: parenthesize (separate (Expr.tokensAll arguments)) ++ [.symbol .semicolon]

/-- The tokens of several statements, one after the other. -/
def Stmt.tokensAll : List Stmt → List Token
  | [] => []
  | stmt :: stmts => stmt.tokens ++ Stmt.tokensAll stmts

end

/-! ## The text of tokens -/

/-- The text of a token. -/
def Token.spelling : Token → String
  | int value => value.repr
  | string text => "\"" ++ text ++ "\""
  | name text => text
  | keyword word => word.spelling
  | symbol mark => mark.spelling

/-- The text of tokens, a space after each. -/
def Token.writeAll (tokens : List Token) : List Char :=
  tokens.flatMap fun token => token.spelling.toList ++ [' ']

/-- The text of a statement. -/
def Stmt.write (stmt : Stmt) : List Char :=
  Token.writeAll stmt.tokens

end ScriptFacts
