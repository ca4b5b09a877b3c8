import ScriptFacts.Program.Tree

/-!
# The grammar

Which tokens denote which trees, said without a reader. Every derivation carries a depth: the
levels of nesting that it may use. Each statement, each expression and each operand of a `not` uses
one; operators and index suffixes use none, however many of them there are.
-/
namespace ScriptFacts

/-! ## Expressions -/

/-- The layers of the grammar of expressions. -/
inductive Layer
  /-- A whole expression. -/
  | exp
  /-- Operands with operators of a level between them. -/
  | operators (level : Level)
  /-- An operand of `and`. -/
  | negation
  /-- An atom with index suffixes. -/
  | indexed
  /-- An expression that no operator takes apart. -/
  | atom
deriving DecidableEq, Repr

/-- The layer of the operands of a level. -/
def Level.operand : Level → Layer
  | disjunction => .operators .conjunction
  | conjunction => .negation
  | comparison => .operators .sum
  | sum => .operators .product
  | product => .indexed

mutual

/-- Tokens denote an expression of a layer, with so many levels of nesting to use. -/
inductive Expr.Derives : Layer → Nat → List Token → Expr → Prop
  | exp {depth tokens expr} (inner : Derives (.operators .disjunction) depth tokens expr) :
    Derives .exp (depth + 1) tokens expr
  | operand {level depth tokens expr} (inner : Derives level.operand depth tokens expr) :
    Derives (.operators level) depth tokens expr
  | binary {depth lefts rights left right} (op : BinaryOp)
    (hleft : Derives (.operators op.level) depth lefts left)
    (hright : Derives op.level.operand depth rights right) :
    Derives (.operators op.level) depth (lefts ++ op.token :: rights) (.binary left op right)
  | not {depth tokens operand} (inner : Derives .negation depth tokens operand) :
    Derives .negation (depth + 1) (.keyword .not :: tokens) (.not operand)
  | comparison {depth tokens expr} (inner : Derives (.operators .comparison) depth tokens expr) :
    Derives .negation depth tokens expr
  | index {depth bases positions base position}
    (hbase : Derives .indexed depth bases base)
    (hposition : Derives .exp depth positions position) :
    Derives .indexed depth
      (bases ++ .symbol .openBracket :: positions ++ [.symbol .closeBracket])
      (.index base position)
  | atom {depth tokens expr} (inner : Derives .atom depth tokens expr) :
    Derives .indexed depth tokens expr
  | parenthesized {depth tokens expr} (inner : Derives .exp depth tokens expr) :
    Derives .atom depth (.symbol .openParen :: tokens ++ [.symbol .closeParen]) expr
  | int {depth} (value : Nat) : Derives .atom depth [.int value] (.int value)
  | string {depth} (text : String) : Derives .atom depth [.string text] (.string text)
  | var {depth} (name : String) : Derives .atom depth [.name name] (.var name)
  | array {depth tokens elements} (inner : Expr.DerivesList depth tokens elements) :
    Derives .atom depth (.symbol .openBracket :: tokens ++ [.symbol .closeBracket])
      (.array elements)

/-- Tokens denote expressions with commas between them, or none. -/
inductive Expr.DerivesList : Nat → List Token → List Expr → Prop
  | empty {depth} : DerivesList depth [] []
  | some {depth tokens exprs} (inner : Expr.DerivesItems depth tokens exprs) :
    DerivesList depth tokens exprs

/-- Tokens denote one or more expressions with commas between them. -/
inductive Expr.DerivesItems : Nat → List Token → List Expr → Prop
  | one {depth tokens expr} (inner : Expr.Derives .exp depth tokens expr) :
    DerivesItems depth tokens [expr]
  | more {depth firsts rests first rest} (hfirst : Expr.Derives .exp depth firsts first)
    (hrest : Expr.DerivesItems depth rests rest) :
    DerivesItems depth (firsts ++ .symbol .comma :: rests) (first :: rest)

end

/-! ## Statements -/

mutual

/-- Tokens denote a statement, with so many levels of nesting to use. -/
inductive Stmt.Derives : Nat → List Token → Stmt → Prop
  | print {depth values value} (hvalue : Expr.Derives .exp depth values value) :
    Derives (depth + 1) (.keyword .print :: values ++ [.symbol .semicolon]) (.print value)
  | assign {depth targets values target value}
    (htarget : Expr.Derives .exp depth targets target)
    (hvalue : Expr.Derives .exp depth values value) :
    Derives (depth + 1) (targets ++ .symbol .equals :: values ++ [.symbol .semicolon])
      (.assign target value)
  | block {depth tokens body} (hbody : Stmt.DerivesAll depth tokens body) :
    Derives (depth + 1) (.symbol .openBrace :: tokens ++ [.symbol .closeBrace]) (.block body)
  | cond {depth conditions bodies condition body}
    (hcondition : Expr.Derives .exp depth conditions condition)
    (hbody : Derives depth bodies body) :
    Derives (depth + 1)
      (.keyword .cond :: .symbol .openParen :: conditions ++ .symbol .closeParen :: bodies)
      (.cond condition body)
  | loop {depth conditions bodies condition body}
    (hcondition : Expr.Derives .exp depth conditions condition)
    (hbody : Derives depth bodies body) :
    Derives (depth + 1)
      (.keyword .loop :: .symbol .openParen :: conditions ++ .symbol .closeParen :: bodies)
      (.loop condition body)
  | proc {depth tokens bodies parameters body} (name : String)
    (hparameters : Expr.DerivesList depth tokens parameters)
    (hbody : Derives depth bodies body) :
    Derives (depth + 1)
      (.keyword .proc :: .name name :: .symbol .openParen :: tokens
        ++ .symbol .closeParen :: bodies)
      (.proc name parameters body)
  | call {depth tokens arguments} (name : String)
    (harguments : Expr.DerivesList depth tokens arguments) :
    Derives (depth + 1)
      (.name name :: .symbol .openParen :: tokens
        ++ [.symbol .closeParen, .symbol .semicolon])
      (.call name arguments)

/-- Tokens denote statements, one after the other. -/
inductive Stmt.DerivesAll : Nat → List Token → List Stmt → Prop
  | nil {depth} : DerivesAll depth [] []
  | cons {depth firsts rests first rest} (hfirst : Stmt.Derives depth firsts first)
    (hrest : DerivesAll depth rests rest) :
    DerivesAll depth (firsts ++ rests) (first :: rest)

end

end ScriptFacts
