import ScriptFacts.Arena.Layout
import ScriptFacts.Program.Grammar

/-!
# The tokens behind a node

Which part of a script each expression node of its program was built from. A derivation of a text
contains derivations of parts of it; the node of such a part has the handle that laying out gives
it, after the nodes of everything that stands before it.

Parentheses build no node, so what stands between them and the whole with them are both parts from
which the node of the expression between them is built.

* `Expr.Builds`, `Stmt.Builds`: in a text that denotes a tree, a part of it builds the node at a
  handle.
* `Span.parenthesized`: the text with parentheses around the part.
-/
namespace ScriptFacts

/-- A part of a text, with what stands before it and after it. -/
structure Span where
  before : List Token
  inner : List Token
  after : List Token

namespace Span

/-- The whole text. -/
def tokens (span : Span) : List Token :=
  span.before ++ span.inner ++ span.after

/-- The part that is all of a text. -/
def whole (tokens : List Token) : Span :=
  ⟨[], tokens, []⟩

/-- The same part of a longer text. -/
def within (lefts : List Token) (span : Span) (rights : List Token) : Span :=
  ⟨lefts ++ span.before, span.inner, span.after ++ rights⟩

/-- The text with parentheses around the part. -/
def parenthesized (span : Span) : List Token :=
  span.before ++ .symbol .openParen :: span.inner ++ .symbol .closeParen :: span.after

@[simp] theorem tokens_whole (tokens : List Token) : (whole tokens).tokens = tokens := by
  simp [Span.tokens, whole]

@[simp] theorem tokens_within (lefts : List Token) (span : Span) (rights : List Token) :
    (span.within lefts rights).tokens = lefts ++ span.tokens ++ rights := by
  simp [Span.tokens, within]

end Span

/-! ## Expressions -/

mutual

/-- The tokens around a span denote an expression of a layer, with so many levels of nesting to use.
When the expression is laid out on an arena, the node at the handle is that of the span. -/
inductive Expr.Builds : Layer → Nat → Arena → Expr → Span → Nat → Prop
  | whole {layer depth arena tokens expr} (h : Expr.Derives layer depth tokens expr) :
    Builds layer depth arena expr (.whole tokens) (expr.layOut arena).1
  | exp {depth arena expr span handle}
    (inner : Builds (.operators .disjunction) depth arena expr span handle) :
    Builds .exp (depth + 1) arena expr span handle
  | operand {level depth arena expr span handle}
    (inner : Builds level.operand depth arena expr span handle) :
    Builds (.operators level) depth arena expr span handle
  | left {depth arena rights left right span handle} (op : BinaryOp)
    (hleft : Builds (.operators op.level) depth arena left span handle)
    (hright : Expr.Derives op.level.operand depth rights right) :
    Builds (.operators op.level) depth arena (.binary left op right)
      (span.within [] (op.token :: rights)) handle
  | right {depth arena lefts left right span handle} (op : BinaryOp)
    (hleft : Expr.Derives (.operators op.level) depth lefts left)
    (hright : Builds op.level.operand depth (left.layOut arena).2 right span handle) :
    Builds (.operators op.level) depth arena (.binary left op right)
      (span.within (lefts ++ [op.token]) []) handle
  | not {depth arena operand span handle}
    (inner : Builds .negation depth arena operand span handle) :
    Builds .negation (depth + 1) arena (.not operand) (span.within [.keyword .not] []) handle
  | comparison {depth arena expr span handle}
    (inner : Builds (.operators .comparison) depth arena expr span handle) :
    Builds .negation depth arena expr span handle
  | base {depth arena positions base position span handle}
    (hbase : Builds .indexed depth arena base span handle)
    (hposition : Expr.Derives .exp depth positions position) :
    Builds .indexed depth arena (.index base position)
      (span.within [] (.symbol .openBracket :: positions ++ [.symbol .closeBracket])) handle
  | position {depth arena bases base position span handle}
    (hbase : Expr.Derives .indexed depth bases base)
    (hposition : Builds .exp depth (base.layOut arena).2 position span handle) :
    Builds .indexed depth arena (.index base position)
      (span.within (bases ++ [.symbol .openBracket]) [.symbol .closeBracket]) handle
  | atom {depth arena expr span handle} (inner : Builds .atom depth arena expr span handle) :
    Builds .indexed depth arena expr span handle
  | parenthesized {depth arena expr span handle}
    (inner : Builds .exp depth arena expr span handle) :
    Builds .atom depth arena expr
      (span.within [.symbol .openParen] [.symbol .closeParen]) handle
  | array {depth arena elements span handle}
    (inner : Expr.BuildsItems depth arena elements span handle) :
    Builds .atom depth arena (.array elements)
      (span.within [.symbol .openBracket] [.symbol .closeBracket]) handle

/-- The tokens around a span denote one or more expressions with commas between them, and the span
builds the node at the handle. -/
inductive Expr.BuildsItems : Nat → Arena → List Expr → Span → Nat → Prop
  | one {depth arena expr span handle} (inner : Expr.Builds .exp depth arena expr span handle) :
    BuildsItems depth arena [expr] span handle
  | first {depth arena rests first rest span handle}
    (hfirst : Expr.Builds .exp depth arena first span handle)
    (hrest : Expr.DerivesItems depth rests rest) :
    BuildsItems depth arena (first :: rest) (span.within [] (.symbol .comma :: rests)) handle
  | rest {depth arena firsts first rest span handle}
    (hfirst : Expr.Derives .exp depth firsts first)
    (hrest : BuildsItems depth (first.layOut arena).2 rest span handle) :
    BuildsItems depth arena (first :: rest) (span.within (firsts ++ [.symbol .comma]) []) handle

end

/-! ## Statements -/

mutual

/-- The tokens around a span denote a statement, with so many levels of nesting to use. When the
statement is laid out on an arena, the node at the handle is that of the expression that the span
denotes. -/
inductive Stmt.Builds : Nat → Arena → Stmt → Span → Nat → Prop
  | print {depth arena value span handle}
    (hvalue : Expr.Builds .exp depth arena value span handle) :
    Builds (depth + 1) arena (.print value)
      (span.within [.keyword .print] [.symbol .semicolon]) handle
  | target {depth arena values target value span handle}
    (htarget : Expr.Builds .exp depth arena target span handle)
    (hvalue : Expr.Derives .exp depth values value) :
    Builds (depth + 1) arena (.assign target value)
      (span.within [] (.symbol .equals :: values ++ [.symbol .semicolon])) handle
  | value {depth arena targets target value span handle}
    (htarget : Expr.Derives .exp depth targets target)
    (hvalue : Expr.Builds .exp depth (target.layOut arena).2 value span handle) :
    Builds (depth + 1) arena (.assign target value)
      (span.within (targets ++ [.symbol .equals]) [.symbol .semicolon]) handle
  | block {depth arena body span handle} (hbody : Stmt.BuildsAll depth arena body span handle) :
    Builds (depth + 1) arena (.block body)
      (span.within [.symbol .openBrace] [.symbol .closeBrace]) handle
  | cond {depth arena bodies condition body span handle}
    (hcondition : Expr.Builds .exp depth arena condition span handle)
    (hbody : Stmt.Derives depth bodies body) :
    Builds (depth + 1) arena (.cond condition body)
      (span.within [.keyword .cond, .symbol .openParen] (.symbol .closeParen :: bodies)) handle
  | condBody {depth arena conditions condition body span handle}
    (hcondition : Expr.Derives .exp depth conditions condition)
    (hbody : Builds depth (condition.layOut arena).2 body span handle) :
    Builds (depth + 1) arena (.cond condition body)
      (span.within
        (.keyword .cond :: .symbol .openParen :: conditions ++ [.symbol .closeParen]) []) handle
  | loop {depth arena bodies condition body span handle}
    (hcondition : Expr.Builds .exp depth arena condition span handle)
    (hbody : Stmt.Derives depth bodies body) :
    Builds (depth + 1) arena (.loop condition body)
      (span.within [.keyword .loop, .symbol .openParen] (.symbol .closeParen :: bodies)) handle
  | loopBody {depth arena conditions condition body span handle}
    (hcondition : Expr.Derives .exp depth conditions condition)
    (hbody : Builds depth (condition.layOut arena).2 body span handle) :
    Builds (depth + 1) arena (.loop condition body)
      (span.within
        (.keyword .loop :: .symbol .openParen :: conditions ++ [.symbol .closeParen]) []) handle
  | parameters {depth arena bodies parameters body span handle} (name : String)
    (hparameters : Expr.BuildsItems depth arena parameters span handle)
    (hbody : Stmt.Derives depth bodies body) :
    Builds (depth + 1) arena (.proc name parameters body)
      (span.within [.keyword .proc, .name name, .symbol .openParen]
        (.symbol .closeParen :: bodies)) handle
  | procBody {depth arena tokens parameters body span handle} (name : String)
    (hparameters : Expr.DerivesList depth tokens parameters)
    (hbody : Builds depth (Expr.layOutAll parameters arena).2 body span handle) :
    Builds (depth + 1) arena (.proc name parameters body)
      (span.within
        (.keyword .proc :: .name name :: .symbol .openParen :: tokens ++ [.symbol .closeParen])
        []) handle
  | call {depth arena arguments span handle} (name : String)
    (harguments : Expr.BuildsItems depth arena arguments span handle) :
    Builds (depth + 1) arena (.call name arguments)
      (span.within [.name name, .symbol .openParen]
        [.symbol .closeParen, .symbol .semicolon]) handle

/-- The tokens around a span denote statements, one after the other, and the span builds the node at
the handle. -/
inductive Stmt.BuildsAll : Nat → Arena → List Stmt → Span → Nat → Prop
  | first {depth arena rests first rest span handle}
    (hfirst : Stmt.Builds depth arena first span handle)
    (hrest : Stmt.DerivesAll depth rests rest) :
    BuildsAll depth arena (first :: rest) (span.within [] rests) handle
  | rest {depth arena firsts first rest span handle}
    (hfirst : Stmt.Derives depth firsts first)
    (hrest : BuildsAll depth (first.layOut arena).2 rest span handle) :
    BuildsAll depth arena (first :: rest) (span.within firsts []) handle

end

end ScriptFacts
