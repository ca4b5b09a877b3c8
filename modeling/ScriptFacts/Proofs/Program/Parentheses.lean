import ScriptFacts.Program.Span
import ScriptFacts.Proofs.Arena.Sorts
import ScriptFacts.Proofs.Program.OnePass
import ScriptFacts.Proofs.Token.Insertion

/-!
# Redundant parentheses

Around the tokens from which an expression node was built, parentheses change nothing but the
nesting: under a limit that is greater by one the script has the same program, node for node.

What counts is that anything that denotes the same expression in the same layer can take the place
of a part, and that parentheses take an expression of any layer back to that layer. A layer that did
not reach down to the atoms would break this for its operands.

* `Expr.Derives.parenthesize`: an expression in parentheses stands where it stands without them.
* `Stmt.Builds.splices`: a part of a script can be exchanged for another that denotes the same.
* `Stmt.Derives.spanned`: every expression node was built from some part.
* `Stmt.ofText_parenthesize`: parentheses in the text of a script.
-/
namespace ScriptFacts

/-! ## Around one expression -/

/-- What is no whole expression is an operand of the loosest level. -/
theorem Expr.Derives.disjunction {layer : Layer} {depth : Nat} {tokens : List Token} {expr : Expr}
    (h : Expr.Derives layer depth tokens expr) (hlayer : layer ≠ .exp) :
    Expr.Derives (.operators .disjunction) depth tokens expr := by
  cases layer with
  | exp => exact absurd rfl hlayer
  | operators level => exact h.of_operators
  | negation => exact .operand (.operand h)
  | indexed =>
    have hproduct : Expr.Derives (.operators .product) depth tokens expr := .operand h
    exact hproduct.of_operators
  | atom => exact .operand h.operand_of_atom

/-- An atom stands in every layer that takes no level of nesting. -/
theorem Expr.Derives.layer_of_atom {layer : Layer} {depth : Nat} {tokens : List Token}
    {expr : Expr} (h : Expr.Derives .atom depth tokens expr) (hlayer : layer ≠ .exp) :
    Expr.Derives layer depth tokens expr := by
  cases layer with
  | exp => exact absurd rfl hlayer
  | operators level => exact .operand h.operand_of_atom
  | negation =>
    have hnegation : Expr.Derives Level.conjunction.operand depth tokens expr := h.operand_of_atom
    exact hnegation
  | indexed => exact .atom h
  | atom => exact h

/-- An expression of a layer may stand in parentheses. They take one level of nesting. -/
theorem Expr.Derives.parenthesize {layer : Layer} {depth : Nat} {tokens : List Token}
    {expr : Expr} (h : Expr.Derives layer depth tokens expr) :
    Expr.Derives layer (depth + 1)
      (.symbol .openParen :: tokens ++ [.symbol .closeParen]) expr := by
  by_cases hlayer : layer = .exp
  · subst hlayer
    exact .of_atom (.parenthesized h)
  · exact (Expr.Derives.parenthesized (.exp (h.disjunction hlayer))).layer_of_atom hlayer

/-! ## Around a part -/

/-- The part denotes an expression with its root at a handle of the arena, and whatever else denotes
this expression in its layer, with one level of nesting more to use, can take its place. -/
def Span.Splices (span : Span) (handle : Nat) (arena : Arena)
    (Whole : List Token → Prop) : Prop :=
  ∃ layer depth before expr, Expr.Derives layer depth span.inner expr
    ∧ handle = (expr.layOut before).1 ∧ (expr.layOut before).2.Extends arena
    ∧ ∀ tokens, Expr.Derives layer (depth + 1) tokens expr →
      Whole (span.before ++ tokens ++ span.after)

namespace Span.Splices

variable {span : Span} {handle : Nat} {arena larger : Arena} {Whole Larger : List Token → Prop}

theorem whole {layer : Layer} {depth : Nat} {tokens : List Token} {expr : Expr}
    (h : Expr.Derives layer depth tokens expr) (arena : Arena) :
    (Span.whole tokens).Splices (expr.layOut arena).1 (expr.layOut arena).2
      fun tokens => Expr.Derives layer (depth + 1) tokens expr := by
  refine ⟨layer, depth, arena, expr, h, rfl, .refl _, ?_⟩
  intro tokens htokens
  simpa [Span.whole] using htokens

/-- What a part can be replaced in may itself stand in something larger. -/
theorem within {lefts rights : List Token} (h : span.Splices handle arena Whole)
    (hgrows : arena.Extends larger)
    (hlarger : ∀ tokens, Whole tokens → Larger (lefts ++ tokens ++ rights)) :
    (span.within lefts rights).Splices handle larger Larger := by
  obtain ⟨layer, depth, before, expr, hexpr, hhandle, hbefore, hwhole⟩ := h
  refine ⟨layer, depth, before, expr, hexpr, hhandle, hbefore.trans hgrows, ?_⟩
  intro tokens htokens
  simpa [Span.within] using hlarger _ (hwhole tokens htokens)

/-- A rule that adds no tokens. -/
theorem imp (h : span.Splices handle arena Whole)
    (hlarger : ∀ tokens, Whole tokens → Larger tokens) : span.Splices handle arena Larger := by
  obtain ⟨layer, depth, before, expr, hexpr, hhandle, hbefore, hwhole⟩ := h
  exact ⟨layer, depth, before, expr, hexpr, hhandle, hbefore,
    fun tokens htokens => hlarger _ (hwhole tokens htokens)⟩

/-- Parentheses around the part are such a replacement. -/
theorem parenthesized (h : span.Splices handle arena Whole) : Whole span.parenthesized := by
  obtain ⟨layer, depth, before, expr, hexpr, -, -, hwhole⟩ := h
  have := hwhole _ hexpr.parenthesize
  simpa [Span.parenthesized] using this

/-- The tree below the handle is what the part denotes. -/
theorem term? (h : span.Splices handle arena Whole) :
    ∃ layer depth expr, Expr.Derives layer depth span.inner expr
      ∧ arena.term? handle = some expr.term := by
  obtain ⟨layer, depth, before, expr, hexpr, rfl, hgrows, -⟩ := h
  refine ⟨layer, depth, expr, hexpr, ?_⟩
  have hsize := hgrows.size_le
  have hunfold := (expr.laidOut before).unfolds arena arena.size hgrows (by omega)
  rwa [Term.mapM_child] at hunfold

theorem inner_ne_nil (h : span.Splices handle arena Whole) : span.inner ≠ [] := by
  obtain ⟨layer, depth, before, expr, hexpr, -⟩ := h
  obtain ⟨token, more, htokens, -⟩ := hexpr.first
  simp [htokens]

end Span.Splices

/-! ## Growing arenas -/

theorem Expr.extends_layOut (expr : Expr) (arena : Arena) : arena.Extends (expr.layOut arena).2 :=
  (expr.laidOut arena).grows

theorem Stmt.extends_layOut (stmt : Stmt) (arena : Arena) : arena.Extends (stmt.layOut arena).2 :=
  (stmt.laidOut arena).grows

mutual

theorem Expr.Builds.splices {layer : Layer} {depth : Nat} {arena : Arena} {expr : Expr}
    {span : Span} {handle : Nat} : Expr.Builds layer depth arena expr span handle →
      span.Splices handle (expr.layOut arena).2
        fun tokens => Expr.Derives layer (depth + 1) tokens expr
  | .whole h => .whole h arena
  | .exp inner => inner.splices.imp fun _ h => .exp h
  | .operand inner => inner.splices.imp fun _ h => .operand h
  | .comparison inner => inner.splices.imp fun _ h => .comparison h
  | .atom inner => inner.splices.imp fun _ h => .atom h
  | .left op hleft hright => by
    refine hleft.splices.within ((Expr.extends_layOut _ _).trans (.push _ _)) ?_
    intro tokens htokens
    exact .binary op htokens (hright.of_depth_le (Nat.le_succ _))
  | .right op hleft hright => by
    refine hright.splices.within (.push _ _) ?_
    intro tokens htokens
    have := Expr.Derives.binary op (hleft.of_depth_le (Nat.le_succ _)) htokens
    simpa using this
  | .not inner => by
    refine inner.splices.within (.push _ _) ?_
    intro tokens htokens
    simpa using Expr.Derives.not htokens
  | .base hbase hposition => by
    refine hbase.splices.within ((Expr.extends_layOut _ _).trans (.push _ _)) ?_
    intro tokens htokens
    simpa using Expr.Derives.index htokens (hposition.of_depth_le (Nat.le_succ _))
  | .position hbase hposition => by
    refine hposition.splices.within (.push _ _) ?_
    intro tokens htokens
    simpa using Expr.Derives.index (hbase.of_depth_le (Nat.le_succ _)) htokens
  | .parenthesized inner => inner.splices.within (.refl _) fun _ h => .parenthesized h
  | .array inner => inner.splices.within (.push _ _) fun _ h => .array (.some h)

theorem Expr.BuildsItems.splices {depth : Nat} {arena : Arena} {exprs : List Expr} {span : Span}
    {handle : Nat} : Expr.BuildsItems depth arena exprs span handle →
      span.Splices handle (Expr.layOutAll exprs arena).2
        fun tokens => Expr.DerivesItems (depth + 1) tokens exprs
  | .one inner => inner.splices.imp fun _ h => .one h
  | .first hfirst hrest => by
    refine hfirst.splices.within (Expr.laidOutAll _ _).grows ?_
    intro tokens htokens
    exact .more htokens (hrest.of_depth_le (Nat.le_succ _))
  | .rest hfirst hrest => by
    refine hrest.splices.within (.refl _) ?_
    intro tokens htokens
    simpa using Expr.DerivesItems.more (hfirst.of_depth_le (Nat.le_succ _)) htokens

end

mutual

theorem Stmt.Builds.splices {depth : Nat} {arena : Arena} {stmt : Stmt} {span : Span}
    {handle : Nat} : Stmt.Builds depth arena stmt span handle →
      span.Splices handle (stmt.layOut arena).2 fun tokens => Stmt.Derives (depth + 1) tokens stmt
  | .print hvalue => hvalue.splices.within (.push _ _) fun _ h => .print h
  | .target htarget hvalue => by
    refine htarget.splices.within ((Expr.extends_layOut _ _).trans (.push _ _)) ?_
    intro tokens htokens
    simpa using Stmt.Derives.assign htokens (hvalue.of_depth_le (Nat.le_succ _))
  | .value htarget hvalue => by
    refine hvalue.splices.within (.push _ _) ?_
    intro tokens htokens
    simpa using Stmt.Derives.assign (htarget.of_depth_le (Nat.le_succ _)) htokens
  | .block hbody => hbody.splices.within (.push _ _) fun _ h => .block h
  | .cond hcondition hbody => by
    refine hcondition.splices.within ((Stmt.extends_layOut _ _).trans (.push _ _)) ?_
    intro tokens htokens
    simpa using Stmt.Derives.cond htokens (hbody.of_depth_le (Nat.le_succ _))
  | .condBody hcondition hbody => by
    refine hbody.splices.within (.push _ _) ?_
    intro tokens htokens
    simpa using Stmt.Derives.cond (hcondition.of_depth_le (Nat.le_succ _)) htokens
  | .loop hcondition hbody => by
    refine hcondition.splices.within ((Stmt.extends_layOut _ _).trans (.push _ _)) ?_
    intro tokens htokens
    simpa using Stmt.Derives.loop htokens (hbody.of_depth_le (Nat.le_succ _))
  | .loopBody hcondition hbody => by
    refine hbody.splices.within (.push _ _) ?_
    intro tokens htokens
    simpa using Stmt.Derives.loop (hcondition.of_depth_le (Nat.le_succ _)) htokens
  | .parameters name hparameters hbody => by
    refine hparameters.splices.within ((Stmt.extends_layOut _ _).trans (.push _ _)) ?_
    intro tokens htokens
    simpa using Stmt.Derives.proc name (.some htokens) (hbody.of_depth_le (Nat.le_succ _))
  | .procBody name hparameters hbody => by
    refine hbody.splices.within (.push _ _) ?_
    intro tokens htokens
    simpa using Stmt.Derives.proc name (hparameters.of_depth_le (Nat.le_succ _)) htokens
  | .call name harguments =>
    harguments.splices.within (.push _ _) fun _ h => .call name (.some h)

theorem Stmt.BuildsAll.splices {depth : Nat} {arena : Arena} {body : List Stmt} {span : Span}
    {handle : Nat} : Stmt.BuildsAll depth arena body span handle →
      span.Splices handle (Stmt.layOutAll body arena).2
        fun tokens => Stmt.DerivesAll (depth + 1) tokens body
  | .first hfirst hrest => by
    refine hfirst.splices.within (Stmt.laidOutAll _ _).grows ?_
    intro tokens htokens
    exact .cons htokens (hrest.of_depth_le (Nat.le_succ _))
  | .rest hfirst hrest => by
    refine hrest.splices.within (.refl _) ?_
    intro tokens htokens
    simpa using Stmt.DerivesAll.cons (hfirst.of_depth_le (Nat.le_succ _)) htokens

end

/-! ## Every expression node has a part -/

/-- Every handle of a range, if it is one that counts, is built from a part of the tokens. -/
def Spanned (counts : Nat → Prop) (tokens : List Token) (low high : Nat)
    (Builds : Span → Nat → Prop) : Prop :=
  ∀ handle, low ≤ handle → handle < high → counts handle →
    ∃ span : Span, span.tokens = tokens ∧ Builds span handle

namespace Spanned

variable {counts : Nat → Prop} {tokens larger : List Token} {low mid high : Nat}
  {Builds Larger : Span → Nat → Prop}

theorem nothing : Spanned counts tokens low low Builds := by
  intro handle hlow hhigh
  omega

theorem join (hfirst : Spanned counts tokens low mid Builds)
    (hsecond : Spanned counts tokens mid high Builds) :
    Spanned counts tokens low high Builds := by
  intro handle hlow hhigh
  by_cases hmid : handle < mid
  · exact hfirst handle hlow hmid
  · exact hsecond handle (by omega) hhigh

theorem imp (h : Spanned counts tokens low high Builds)
    (hlarger : ∀ span handle, Builds span handle → Larger span handle) :
    Spanned counts tokens low high Larger := by
  intro handle hlow hhigh hcounts
  obtain ⟨span, hspan, hbuilds⟩ := h handle hlow hhigh hcounts
  exact ⟨span, hspan, hlarger span handle hbuilds⟩

theorem within {lefts rights : List Token} (h : Spanned counts tokens low high Builds)
    (htokens : lefts ++ tokens ++ rights = larger)
    (hlarger : ∀ span handle, Builds span handle → Larger (span.within lefts rights) handle) :
    Spanned counts larger low high Larger := by
  intro handle hlow hhigh hcounts
  obtain ⟨span, rfl, hbuilds⟩ := h handle hlow hhigh hcounts
  refine ⟨span.within lefts rights, ?_, hlarger span handle hbuilds⟩
  rw [Span.tokens_within, htokens]

/-- A node on top that is built from all tokens. -/
theorem push {arena : Arena} {node : Node} (h : Spanned counts tokens low arena.size Builds)
    (hroot : counts arena.size → Builds (.whole tokens) arena.size) :
    Spanned counts tokens low (arena.push node).2.size Builds := by
  rw [Arena.size_push]
  refine h.join ?_
  intro handle hlow hhigh hcounts
  obtain rfl : handle = arena.size := by omega
  exact ⟨.whole tokens, Span.tokens_whole tokens, hroot hcounts⟩

/-- A node on top that does not count. -/
theorem pushOther {arena : Arena} {node : Node} (h : Spanned counts tokens low arena.size Builds)
    (hroot : ¬ counts arena.size) : Spanned counts tokens low (arena.push node).2.size Builds :=
  h.push fun hcounts => absurd hcounts hroot

end Spanned

mutual

theorem Expr.Derives.spanned (counts : Nat → Prop) {layer : Layer} {depth : Nat}
    {tokens : List Token} {expr : Expr} :
    Expr.Derives layer depth tokens expr → ∀ arena : Arena,
      Spanned counts tokens arena.size (expr.layOut arena).2.size
        (Expr.Builds layer depth arena expr)
  | .exp inner, arena => (inner.spanned counts arena).imp fun _ _ h => .exp h
  | .operand inner, arena => (inner.spanned counts arena).imp fun _ _ h => .operand h
  | .comparison inner, arena => (inner.spanned counts arena).imp fun _ _ h => .comparison h
  | .atom inner, arena => (inner.spanned counts arena).imp fun _ _ h => .atom h
  | .parenthesized inner, arena =>
    (inner.spanned counts arena).within rfl fun _ _ h => .parenthesized h
  | .binary op hleft hright, arena => by
    refine .push (.join
      ((hleft.spanned counts arena).within rfl fun _ _ h => .left op h hright) ?_)
      fun _ => .whole (.binary op hleft hright)
    exact (hright.spanned counts _).within (by simp) fun _ _ h => .right op hleft h
  | .not inner, arena => by
    refine .push ?_ fun _ => .whole (.not inner)
    exact (inner.spanned counts arena).within (by simp) fun _ _ h => .not h
  | .index hbase hposition, arena => by
    refine .push (.join
      ((hbase.spanned counts arena).within (by simp) fun _ _ h => .base h hposition) ?_)
      fun _ => .whole (.index hbase hposition)
    exact (hposition.spanned counts _).within (by simp) fun _ _ h => .position hbase h
  | .array inner, arena => by
    refine .push ?_ fun _ => .whole (.array inner)
    exact (inner.spanned counts arena).within rfl fun _ _ h => .array h
  | .int value, arena => .push .nothing fun _ => .whole (.int value)
  | .string text, arena => .push .nothing fun _ => .whole (.string text)
  | .var name, arena => .push .nothing fun _ => .whole (.var name)

theorem Expr.DerivesList.spanned (counts : Nat → Prop) {depth : Nat} {tokens : List Token}
    {exprs : List Expr} : Expr.DerivesList depth tokens exprs → ∀ arena : Arena,
      Spanned counts tokens arena.size (Expr.layOutAll exprs arena).2.size
        (Expr.BuildsItems depth arena exprs)
  | .empty, _ => .nothing
  | .some inner, arena => inner.spanned counts arena

theorem Expr.DerivesItems.spanned (counts : Nat → Prop) {depth : Nat} {tokens : List Token}
    {exprs : List Expr} : Expr.DerivesItems depth tokens exprs → ∀ arena : Arena,
      Spanned counts tokens arena.size (Expr.layOutAll exprs arena).2.size
        (Expr.BuildsItems depth arena exprs)
  | .one inner, arena => (inner.spanned counts arena).imp fun _ _ h => .one h
  | .more hfirst hrest, arena => by
    refine .join ((hfirst.spanned counts arena).within rfl fun _ _ h => .first h hrest) ?_
    exact (hrest.spanned counts _).within (by simp) fun _ _ h => .rest hfirst h

end

/-- A statement node is no expression node of any larger arena. -/
theorem Arena.Extends.not_leadsTo_expr {arena larger : Arena} {node : Node}
    (h : (arena.push node).2.Extends larger) (hstmt : node.kind.phrase = .stmt) :
    ¬ larger.LeadsTo .expr arena.size := by
  rintro ⟨other, hother, hexpr⟩
  have hnode : larger.get? arena.size = some node := h.get? (by rw [Arena.get?_push, if_pos rfl])
  rw [hnode] at hother
  rw [← Option.some.inj hother, hstmt] at hexpr
  cases hexpr

mutual

/-- In an arena in which a statement was laid out, the expression nodes of the statement are built
from parts of its tokens. -/
theorem Stmt.Derives.spanned {larger : Arena} {depth : Nat} {tokens : List Token} {stmt : Stmt} :
    Stmt.Derives depth tokens stmt → ∀ arena : Arena, (stmt.layOut arena).2.Extends larger →
      Spanned (larger.LeadsTo .expr) tokens arena.size (stmt.layOut arena).2.size
        (Stmt.Builds depth arena stmt)
  | .print hvalue, arena, h => by
    refine .pushOther ?_ (h.not_leadsTo_expr rfl)
    exact (hvalue.spanned _ arena).within rfl fun _ _ h => .print h
  | .assign htarget hvalue, arena, h => by
    refine .pushOther (.join
      ((htarget.spanned _ arena).within (by simp) fun _ _ h => .target h hvalue) ?_)
      (h.not_leadsTo_expr rfl)
    exact (hvalue.spanned _ _).within (by simp) fun _ _ h => .value htarget h
  | .block hbody, arena, h => by
    refine .pushOther ?_ (h.not_leadsTo_expr rfl)
    exact (hbody.spanned arena ((Arena.Extends.push _ _).trans h)).within rfl fun _ _ h => .block h
  | .cond hcondition hbody, arena, h => by
    refine .pushOther (.join
      ((hcondition.spanned _ arena).within (by simp) fun _ _ h => .cond h hbody) ?_)
      (h.not_leadsTo_expr rfl)
    exact (hbody.spanned _ ((Arena.Extends.push _ _).trans h)).within (by simp)
      fun _ _ h => .condBody hcondition h
  | .loop hcondition hbody, arena, h => by
    refine .pushOther (.join
      ((hcondition.spanned _ arena).within (by simp) fun _ _ h => .loop h hbody) ?_)
      (h.not_leadsTo_expr rfl)
    exact (hbody.spanned _ ((Arena.Extends.push _ _).trans h)).within (by simp)
      fun _ _ h => .loopBody hcondition h
  | .proc name hparameters hbody, arena, h => by
    refine .pushOther (.join
      ((hparameters.spanned _ arena).within (by simp) fun _ _ h => .parameters name h hbody) ?_)
      (h.not_leadsTo_expr rfl)
    exact (hbody.spanned _ ((Arena.Extends.push _ _).trans h)).within (by simp)
      fun _ _ h => .procBody name hparameters h
  | .call name harguments, arena, h => by
    refine .pushOther ?_ (h.not_leadsTo_expr rfl)
    exact (harguments.spanned _ arena).within rfl fun _ _ h => .call name h

theorem Stmt.DerivesAll.spanned {larger : Arena} {depth : Nat} {tokens : List Token}
    {body : List Stmt} :
    Stmt.DerivesAll depth tokens body → ∀ arena : Arena,
      (Stmt.layOutAll body arena).2.Extends larger →
      Spanned (larger.LeadsTo .expr) tokens arena.size (Stmt.layOutAll body arena).2.size
        (Stmt.BuildsAll depth arena body)
  | .nil, _, _ => .nothing
  | .cons hfirst hrest, arena, h => by
    refine .join ((hfirst.spanned arena ((Stmt.laidOutAll _ _).grows.trans h)).within (by simp)
      fun _ _ h => .first h hrest) ?_
    exact (hrest.spanned _ h).within (by simp) fun _ _ h => .rest hfirst h

end

/-! ## In the text of a script -/

/-- A span of lexemes, by their tokens. -/
def Lexeme.span (before inner after : List Lexeme) : Span :=
  ⟨before.map token, inner.map token, after.map token⟩

theorem Lexeme.exists_span {lexemes : List Lexeme} {span : Span}
    (h : span.tokens = lexemes.map token) :
    ∃ before inner after, lexemes = before ++ inner ++ after
      ∧ Lexeme.span before inner after = span := by
  obtain ⟨rest, after, rfl, hrest, hafter⟩ := List.map_eq_append_iff.mp h.symm
  obtain ⟨before, inner, rfl, hbefore, hinner⟩ := List.map_eq_append_iff.mp hrest
  exact ⟨before, inner, after, rfl, by rw [Lexeme.span, hbefore, hinner, hafter]⟩

/-- What a text denotes is what the tokens of its lexemes denote. -/
theorem Stmt.ofText_eq_ok_iff_of_cut {limit : Nat} {text last : List Char} {lexemes : List Lexeme}
    {stmt : Stmt} (hcut : cut text = (lexemes, .finished last)) :
    Stmt.ofText limit text = .ok stmt ↔ Stmt.Derives limit (lexemes.map Lexeme.token) stmt := by
  have hstream := TokenStream.ofText_eq_ok_iff.mpr ⟨lexemes, last, hcut, rfl⟩
  rw [Stmt.ofText_of_stream hstream, Stmt.ofStream_eq_ok_iff, TokenStream.tokens,
    TokenStream.tokens_place]

/-- The program of a text whose lexemes denote a statement. -/
theorem Ast.ofText_of_cut {limit : Nat} {text last : List Char} {lexemes : List Lexeme}
    {stmt : Stmt} (hcut : cut text = (lexemes, .finished last))
    (h : Stmt.Derives limit (lexemes.map Lexeme.token) stmt) :
    Ast.ofText limit text = .ok stmt.toAst := by
  rw [Ast.ofText_eq, (Stmt.ofText_eq_ok_iff_of_cut hcut).mpr h]
  rfl

/-- Each expression node of a script was built from a run of lexemes that denote the tree below the
node. With an opening parenthesis before the first of them and a closing one after the last, the
text is a script under a limit that is greater by one, and it has the same program. -/
theorem Stmt.ofText_parenthesize (limit : Nat) (text : List Char) (stmt : Stmt)
    (lexemes : List Lexeme) (last : List Char) (hstmt : Stmt.ofText limit text = .ok stmt)
    (hcut : cut text = (lexemes, .finished last)) :
    Ast.ofText limit text = .ok stmt.toAst
      ∧ (∀ handle, stmt.toAst.arena.LeadsTo .expr handle → ∃ before first more after,
        lexemes = before ++ first :: more ++ after
          ∧ Stmt.Builds limit .empty stmt (Lexeme.span before (first :: more) after) handle)
      ∧ ∀ before first more after handle, lexemes = before ++ first :: more ++ after →
        Stmt.Builds limit .empty stmt (Lexeme.span before (first :: more) after) handle →
        (∃ layer depth expr, Expr.Derives layer depth ((first :: more).map Lexeme.token) expr
            ∧ stmt.toAst.arena.term? handle = some expr.term)
          ∧ text = Lexeme.flatten before ++ (first.gap ++ (first.text ++ Lexeme.flatten more
              ++ (Lexeme.flatten after ++ last)))
          ∧ Ast.ofText (limit + 1) (Lexeme.flatten before ++ (first.gap ++ ('('
              :: (first.text ++ Lexeme.flatten more
              ++ (')' :: (Lexeme.flatten after ++ last)))))) = .ok stmt.toAst := by
  have hderives := (Stmt.ofText_eq_ok_iff_of_cut hcut).mp hstmt
  refine ⟨Ast.ofText_of_cut hcut hderives, ?_, ?_⟩
  · intro handle hhandle
    obtain ⟨node, hnode, -⟩ := id hhandle
    have hlt : handle < stmt.toAst.arena.size := by
      by_contra hle
      rw [Arena.get?_eq_none_iff.mpr (Nat.not_lt.mp hle)] at hnode
      cases hnode
    obtain ⟨span, hspan, hbuilds⟩ :=
      hderives.spanned .empty (.refl stmt.toAst.arena) handle (Nat.zero_le _) hlt hhandle
    obtain ⟨before, inner, after, hlexemes, rfl⟩ := Lexeme.exists_span hspan
    cases inner with
    | nil => exact absurd rfl hbuilds.splices.inner_ne_nil
    | cons first more => exact ⟨before, first, more, after, hlexemes, hbuilds⟩
  · intro before first more after handle hlexemes hbuilds
    have hsplits := cut_eq_finished_iff.mp hcut
    rw [hlexemes] at hsplits
    refine ⟨hbuilds.splices.term?, ?_, ?_⟩
    · simpa [Lexeme.flatten] using hsplits.flatten.symm
    · refine Ast.ofText_of_cut (cut_eq_finished_iff.mpr hsplits.parenthesize) ?_
      simpa [Span.parenthesized, Lexeme.span] using hbuilds.splices.parenthesized

/-- The left operand of the last subtraction of `3 - 2 - 1` is itself a difference, written without
parentheses. -/
theorem Stmt.ofText_parenthesize_difference :
    ∃ ast, Ast.ofText 2 "print 3 - 2 - 1;".toList = .ok ast
      ∧ Ast.ofText 3 "print (3 - 2) - 1;".toList = .ok ast
      ∧ ast.arena.get? 2 = some (.binary 0 "-" 1) := by
  let difference : Expr := .binary (.int 3) .sub (.int 2)
  let lexemes : List Lexeme := [⟨[], "print".toList, .keyword .print⟩, ⟨[' '], ['3'], .int 3⟩,
    ⟨[' '], ['-'], .symbol .minus⟩, ⟨[' '], ['2'], .int 2⟩, ⟨[' '], ['-'], .symbol .minus⟩,
    ⟨[' '], ['1'], .int 1⟩, ⟨[], [';'], .symbol .semicolon⟩]
  have hcut : cut "print 3 - 2 - 1;".toList = (lexemes, .finished []) := by decide +kernel
  have hread : Stmt.ofText 2 "print 3 - 2 - 1;".toList
      = .ok (.print (.binary difference .sub (.int 1))) :=
    (Stmt.ofText_eq_ok_iff_of_cut hcut).mpr (Stmt.derives_of_ofTokens (by rfl))
  have hpart : Expr.Derives (.operators .sum) 0 [.int 3, .symbol .minus, .int 2] difference :=
    .binary .sub (.operand (.operand (.atom (.int 3)))) (.operand (.atom (.int 2)))
  have hbuilds : Stmt.Builds 2 .empty (.print (.binary difference .sub (.int 1)))
      (Lexeme.span (lexemes.take 1) ((lexemes.drop 1).take 3) (lexemes.drop 4)) 2 :=
    .print (.exp (.operand (.operand (.comparison (.operand
      (.left .sub (.whole hpart) (.operand (.atom (.int 1)))))))))
  obtain ⟨hast, -, hinsert⟩ := Stmt.ofText_parenthesize 2 _ _ lexemes [] hread hcut
  obtain ⟨-, -, hmore⟩ := hinsert (lexemes.take 1) _ _ (lexemes.drop 4) 2 rfl hbuilds
  exact ⟨_, hast, hmore, by decide⟩

end ScriptFacts
