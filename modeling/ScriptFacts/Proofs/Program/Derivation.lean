import ScriptFacts.Program.Grammar

/-!
# Derivations

What can be said of the grammar without a reader.

* `Stmt.Derives.of_depth_le`: a derivation may leave levels of nesting unused.
* `Expr.Derives.first`: which tokens begin an expression of a layer.
* `Expr.Derives.tail_head_ne`: no expression is a name before a parenthesis, so two tokens tell a
  call from an assignment.
* `Stmt.Derives.ne_nil`: a statement has a token.
-/
namespace ScriptFacts

/-! ## Unused levels -/

mutual

theorem Expr.Derives.of_depth_le {layer : Layer} {depth limit : Nat} {tokens : List Token}
    {expr : Expr} (hle : depth ≤ limit) :
    Expr.Derives layer depth tokens expr → Expr.Derives layer limit tokens expr
  | .exp inner => by
    obtain ⟨limit, rfl⟩ : ∃ n, limit = n + 1 := ⟨limit - 1, by omega⟩
    exact .exp (Expr.Derives.of_depth_le (by omega) inner)
  | .operand inner => .operand (Expr.Derives.of_depth_le hle inner)
  | .binary op hleft hright =>
    .binary op (Expr.Derives.of_depth_le hle hleft) (Expr.Derives.of_depth_le hle hright)
  | .not inner => by
    obtain ⟨limit, rfl⟩ : ∃ n, limit = n + 1 := ⟨limit - 1, by omega⟩
    exact .not (Expr.Derives.of_depth_le (by omega) inner)
  | .comparison inner => .comparison (Expr.Derives.of_depth_le hle inner)
  | .index hbase hposition =>
    .index (Expr.Derives.of_depth_le hle hbase) (Expr.Derives.of_depth_le hle hposition)
  | .atom inner => .atom (Expr.Derives.of_depth_le hle inner)
  | .parenthesized inner => .parenthesized (Expr.Derives.of_depth_le hle inner)
  | .int value => .int value
  | .string text => .string text
  | .var name => .var name
  | .array inner => .array (Expr.DerivesList.of_depth_le hle inner)

theorem Expr.DerivesList.of_depth_le {depth limit : Nat} {tokens : List Token}
    {exprs : List Expr} (hle : depth ≤ limit) :
    Expr.DerivesList depth tokens exprs → Expr.DerivesList limit tokens exprs
  | .empty => .empty
  | .some inner => .some (Expr.DerivesItems.of_depth_le hle inner)

theorem Expr.DerivesItems.of_depth_le {depth limit : Nat} {tokens : List Token}
    {exprs : List Expr} (hle : depth ≤ limit) :
    Expr.DerivesItems depth tokens exprs → Expr.DerivesItems limit tokens exprs
  | .one inner => .one (Expr.Derives.of_depth_le hle inner)
  | .more hfirst hrest =>
    .more (Expr.Derives.of_depth_le hle hfirst) (Expr.DerivesItems.of_depth_le hle hrest)

end

mutual

theorem Stmt.Derives.of_depth_le {depth limit : Nat} {tokens : List Token} {stmt : Stmt}
    (hle : depth ≤ limit) (h : Stmt.Derives depth tokens stmt) :
    Stmt.Derives limit tokens stmt := by
  obtain ⟨limit, rfl⟩ : ∃ n, limit = n + 1 := ⟨limit - 1, by cases h <;> omega⟩
  match h with
  | .print hvalue => exact .print (hvalue.of_depth_le (by omega))
  | .assign htarget hvalue =>
    exact .assign (htarget.of_depth_le (by omega)) (hvalue.of_depth_le (by omega))
  | .block hbody => exact .block (Stmt.DerivesAll.of_depth_le (by omega) hbody)
  | .cond hcondition hbody =>
    exact .cond (hcondition.of_depth_le (by omega)) (Stmt.Derives.of_depth_le (by omega) hbody)
  | .loop hcondition hbody =>
    exact .loop (hcondition.of_depth_le (by omega)) (Stmt.Derives.of_depth_le (by omega) hbody)
  | .proc name hparameters hbody =>
    exact .proc name (hparameters.of_depth_le (by omega))
      (Stmt.Derives.of_depth_le (by omega) hbody)
  | .call name harguments => exact .call name (harguments.of_depth_le (by omega))

theorem Stmt.DerivesAll.of_depth_le {depth limit : Nat} {tokens : List Token} {body : List Stmt}
    (hle : depth ≤ limit) :
    Stmt.DerivesAll depth tokens body → Stmt.DerivesAll limit tokens body
  | .nil => .nil
  | .cons hfirst hrest =>
    .cons (Stmt.Derives.of_depth_le hle hfirst) (Stmt.DerivesAll.of_depth_le hle hrest)

end

/-! ## Looser layers -/

/-- Operands with operators of any level between them are operands of the loosest level. -/
theorem Expr.Derives.of_operators {level : Level} {depth : Nat} {tokens : List Token} {expr : Expr}
    (h : Expr.Derives (.operators level) depth tokens expr) :
    Expr.Derives (.operators .disjunction) depth tokens expr := by
  cases level with
  | disjunction => exact h
  | conjunction => exact .operand h
  | comparison => exact .operand (.operand (.comparison h))
  | sum => exact .operand (.operand (.comparison (.operand h)))
  | product => exact .operand (.operand (.comparison (.operand (.operand h))))

/-- An atom stands wherever an operand of some level can. -/
theorem Expr.Derives.operand_of_atom {level : Level} {depth : Nat} {tokens : List Token}
    {expr : Expr} (h : Expr.Derives .atom depth tokens expr) :
    Expr.Derives level.operand depth tokens expr := by
  have hproduct : Expr.Derives (.operators .product) depth tokens expr := .operand (.atom h)
  cases level with
  | disjunction => exact .operand (.comparison (.operand (.operand hproduct)))
  | conjunction => exact .comparison (.operand (.operand hproduct))
  | comparison => exact .operand hproduct
  | sum => exact hproduct
  | product => exact .atom h

/-- An atom is an expression. -/
theorem Expr.Derives.of_atom {depth : Nat} {tokens : List Token} {expr : Expr}
    (h : Expr.Derives .atom depth tokens expr) : Expr.Derives .exp (depth + 1) tokens expr :=
  .exp (.operand h.operand_of_atom)

/-! ## Short texts -/

theorem Expr.Derives.name_x {depth : Nat} (h : 0 < depth) :
    Expr.Derives .exp depth [.name "x"] (.var "x") := by
  obtain ⟨depth, rfl⟩ : ∃ n, depth = n + 1 := ⟨depth - 1, by omega⟩
  exact .of_atom (.var "x")

theorem Stmt.Derives.empty_block {depth : Nat} (h : 0 < depth) :
    Stmt.Derives depth [.symbol .openBrace, .symbol .closeBrace] (.block []) := by
  obtain ⟨depth, rfl⟩ : ∃ n, depth = n + 1 := ⟨depth - 1, by omega⟩
  exact .block .nil

/-! ## Beginnings -/

/-- How tightly the texts of a layer hold together. -/
def Layer.tightness : Layer → Nat
  | exp | operators .disjunction => 0
  | operators .conjunction => 1
  | negation => 2
  | operators .comparison => 3
  | operators .sum => 4
  | operators .product => 5
  | indexed => 6
  | atom => 7

theorem Level.tightness_lt_operand (level : Level) :
    (Layer.operators level).tightness < level.operand.tightness := by
  cases level <;> decide

/-- A token with which a text of a layer can begin. -/
def Layer.Begins (layer : Layer) : Token → Prop
  | .int _ | .string _ | .name _ => True
  | .keyword word => word = .not ∧ layer.tightness ≤ Layer.negation.tightness
  | .symbol mark => mark = .openParen ∨ mark = .openBracket

theorem Layer.Begins.of_le {layer looser : Layer} {token : Token} (h : layer.Begins token)
    (hle : looser.tightness ≤ layer.tightness) : looser.Begins token := by
  cases token with
  | keyword word => exact ⟨h.1, Nat.le_trans hle h.2⟩
  | int _ | string _ | name _ | symbol _ => exact h

theorem Expr.Derives.first {layer : Layer} {depth : Nat} {tokens : List Token} {expr : Expr} :
    Expr.Derives layer depth tokens expr →
      ∃ token more, tokens = token :: more ∧ layer.Begins token
  | .exp inner => by
    obtain ⟨token, more, htokens, hbegins⟩ := inner.first
    exact ⟨token, more, htokens, hbegins.of_le (Nat.le_refl _)⟩
  | @Expr.Derives.operand level _ _ _ inner => by
    obtain ⟨token, more, htokens, hbegins⟩ := inner.first
    exact ⟨token, more, htokens, hbegins.of_le (Nat.le_of_lt level.tightness_lt_operand)⟩
  | .binary op hleft _ => by
    obtain ⟨token, more, rfl, hbegins⟩ := hleft.first
    exact ⟨token, _, rfl, hbegins⟩
  | .not _ => ⟨_, _, rfl, rfl, Nat.le_refl _⟩
  | .comparison inner => by
    obtain ⟨token, more, htokens, hbegins⟩ := inner.first
    exact ⟨token, more, htokens, hbegins.of_le (by decide)⟩
  | .index hbase _ => by
    obtain ⟨token, more, rfl, hbegins⟩ := hbase.first
    exact ⟨token, _, rfl, hbegins⟩
  | .atom inner => by
    obtain ⟨token, more, htokens, hbegins⟩ := inner.first
    exact ⟨token, more, htokens, hbegins.of_le (by decide)⟩
  | .parenthesized _ => ⟨_, _, rfl, .inl rfl⟩
  | .int _ | .string _ | .var _ => ⟨_, _, rfl, trivial⟩
  | .array _ => ⟨_, _, rfl, .inr rfl⟩

theorem BinaryOp.token_ne_symbol {op : BinaryOp} {mark : Symbol}
    (hmark : mark = .openParen ∨ mark = .openBracket) : op.token ≠ .symbol mark := by
  rcases hmark with rfl | rfl <;> cases op <;> decide

/-- A text that begins with a name goes on without a parenthesis if the name begins an
expression and no parenthesis follows the expression. -/
theorem Expr.Derives.tail_head_ne {layer : Layer} {depth : Nat} {name : String}
    {tokens : List Token} {expr : Expr} :
    Expr.Derives layer depth tokens expr → ∀ {rest more : List Token},
      rest.head? ≠ some (.symbol .openParen) → tokens ++ rest = .name name :: more →
      more.head? ≠ some (.symbol .openParen)
  | .exp inner => inner.tail_head_ne
  | .operand inner => inner.tail_head_ne
  | .comparison inner => inner.tail_head_ne
  | .atom inner => inner.tail_head_ne
  | .binary op hleft _ => by
    intro _ htokens
    rw [List.append_assoc, List.cons_append] at htokens
    exact hleft.tail_head_ne (by simpa using op.token_ne_symbol (.inl rfl)) htokens
  | .index hbase _ => by
    intro _ htokens
    rw [List.append_assoc, List.append_assoc, List.cons_append] at htokens
    exact hbase.tail_head_ne (by simp) htokens
  | .var _ => by
    intro hrest htokens
    simp only [List.cons_append, List.nil_append, List.cons.injEq] at htokens
    rwa [← htokens.2]
  | .not _ | .parenthesized _ | .int _ | .string _ | .array _ => by
    intro _ htokens
    simp at htokens

theorem Stmt.Derives.ne_nil {depth : Nat} {tokens : List Token} {stmt : Stmt}
    (h : Stmt.Derives depth tokens stmt) : tokens ≠ [] := by
  cases h <;> simp

end ScriptFacts
