import ScriptFacts.Program.StmtReader
import ScriptFacts.Proofs.Program.Derivation
import ScriptFacts.Proofs.Program.Outcome

/-!
# Readers answer for the grammar

Each reader is measured against the derivations of its part of the grammar: what it accepts is
derived, and what it has passed over when it refuses a token begins a derived text. A reader with a
budget has room for as many tokens as the budget has levels, less two for a statement: one level is
the statement's own, and an assignment opens an expression before it passes over any token.

The readers of expressions are taken apart with the reader `inner` of the next level as a
parameter. One induction on the budget then ties the levels together.

* `Expr.reads_read`, `Stmt.reads_read`: the readers with a budget.
* `Stmt.derives_of_ofTokens`: tokens that are read as a statement denote it.
* `Stmt.completable_of_ofTokens`: what stands before a refused token begins a statement, and the
  budget suffices for the completed one.
-/
namespace ScriptFacts

namespace Expr

/-! ## Lists -/

/-- Tokens denote further items, each after a comma. -/
inductive DerivesMore (depth : Nat) : List Token → List Expr → Prop
  | nil : DerivesMore depth [] []
  | comma {tokens exprs} (inner : DerivesItems depth tokens exprs) :
    DerivesMore depth (.symbol .comma :: tokens) exprs

theorem DerivesMore.cons {depth : Nat} {firsts mores : List Token} {first : Expr}
    {more : List Expr} (hfirst : Derives .exp depth firsts first)
    (hmore : DerivesMore depth mores more) :
    DerivesItems depth (firsts ++ mores) (first :: more) := by
  cases hmore with
  | nil => rw [List.append_nil]; exact .one hfirst
  | comma inner => exact .more hfirst inner

/-- Tokens denote items and end with a mark. -/
def DerivesClosed (close : Symbol) (depth : Nat) (tokens : List Token) (exprs : List Expr) :
    Prop :=
  ∃ items, tokens = items ++ [.symbol close] ∧ DerivesList depth items exprs

section Readers

variable {depth room : Nat} {inner : Reader Expr}
  (hinner : ∀ tokens, Reads (Derives .exp depth) room tokens (inner tokens))

include hinner

theorem reads_readMore (rounds tokens : List Token) :
    Reads (DerivesMore depth) room tokens (readMore inner rounds tokens) := by
  fun_induction readMore inner rounds tokens with
  | case1 _ rounds rest ih =>
    refine .cons (Nat.le_succ _) (.bind (hinner _) ?_ fun passed item rest hitem => ?_)
    · intro _ passed item hitem
      exact .of_language (.comma (.one hitem))
    · exact .map (ih rest) fun passed items hitems => .comma (hitems.cons hitem)
  | case2 => exact .done .nil

theorem reads_readList (close : Symbol) (place : Place) (tokens : List Token) :
    Reads (DerivesClosed close depth) room tokens (readList inner close place tokens) := by
  unfold readList
  split
  · next hclose =>
    obtain ⟨rest, rfl⟩ : ∃ rest, tokens = .symbol close :: rest := by
      cases tokens with
      | nil => simp at hclose
      | cons token rest => exact ⟨rest, by simpa using hclose⟩
    exact .cons (Nat.le_succ _) (.done ⟨[], rfl, .empty⟩)
  · refine .bind (hinner _) ?_ fun firsts first rest hfirst => ?_
    · intro _ firsts first hfirst
      exact .of_mark ⟨firsts, rfl, .some (.one hfirst)⟩
    refine .bind (reads_readMore hinner _ _) ?_ fun mores more rest hmore => ?_
    · intro _ mores more hmore
      exact .of_mark ⟨_, (List.append_assoc _ _ _).symm, .some (hmore.cons hfirst)⟩
    · have hclosed : DerivesClosed close depth (firsts ++ (mores ++ [.symbol close]))
          (first :: more) :=
        ⟨_, (List.append_assoc _ _ _).symm, .some (hmore.cons hfirst)⟩
      exact .expect (Nat.le_succ _) (fun _ => .of_mark hclosed) fun rest => .done hclosed

/-! ## Atoms and index suffixes -/

theorem reads_readAtom (tokens : List Token) :
    Reads (Derives .atom depth) (room + 1) tokens (readAtom inner tokens) := by
  unfold readAtom
  split
  · refine .cons (Nat.le_refl _) (.bind (hinner _) ?_ fun passed expr rest hexpr => ?_)
    · intro _ passed expr hexpr
      exact .of_mark (.parenthesized hexpr)
    · exact .expect (Nat.le_succ _) (fun _ => .of_mark (by simpa using Derives.parenthesized hexpr))
        fun rest => .done (.parenthesized hexpr)
  · refine .cons (Nat.le_refl _) (.map (reads_readList hinner _ _ _) ?_)
    intro passed elements helements
    obtain ⟨items, rfl, hitems⟩ := helements
    exact .array hitems
  · exact .cons (Nat.le_refl _) (.done (.int _))
  · exact .cons (Nat.le_refl _) (.done (.string _))
  · exact .cons (Nat.le_refl _) (.done (.var _))
  · exact .refused fun _ => ⟨[.name "x"], _, by simp [Token.Filler], .var "x"⟩

theorem reads_readSuffixes (rounds : List Token) {bases : List Token} {base : Expr}
    (hbase : Derives .indexed depth bases base) (tokens : List Token) :
    Reads (fun more expr => Derives .indexed depth (bases ++ more) expr) (room + 1) tokens
      (readSuffixes inner rounds base tokens) := by
  fun_induction readSuffixes inner rounds base tokens generalizing bases with
  | case1 _ rounds base rest ih =>
    refine .cons (Nat.le_refl _) (.bind (hinner _) ?_ fun passed position rest hposition => ?_)
    · intro _ passed position hposition
      exact .of_mark (by simpa using hbase.index hposition)
    · refine .expect (Nat.le_succ _) (fun _ => ?_) fun rest => ?_
      · exact .of_mark (by simpa using hbase.index hposition)
      · refine ((ih position rest (hbase.index hposition)).imp ?_).of_room_le (Nat.le_succ _)
        intro more expr hexpr
        simpa using hexpr
  | case2 => exact .done (by rwa [List.append_nil])

theorem reads_readIndexed (tokens : List Token) :
    Reads (Derives .indexed depth) (room + 1) tokens (readIndexed inner tokens) :=
  .bind (reads_readAtom hinner tokens) (fun _ _ _ hbase => .of_language (.atom hbase))
    fun _ _ rest hbase => reads_readSuffixes hinner rest (.atom hbase) rest

end Readers

/-! ## Binary layers -/

section Layers

variable (level : Level) {depth room : Nat} {operand : Reader Expr}
  (hoperand : ∀ tokens, Reads (Derives level.operand depth) room tokens (operand tokens))

include hoperand

theorem reads_readOperations (rounds : List Token) {lefts : List Token} {left : Expr}
    (hleft : Derives (.operators level) depth lefts left) (tokens : List Token) :
    Reads (fun more expr => Derives (.operators level) depth (lefts ++ more) expr) room tokens
      (readOperations level operand rounds left tokens) := by
  fun_induction readOperations level operand rounds left tokens generalizing lefts with
  | case1 _ rounds left token rest op hop ih =>
    obtain ⟨rfl, rfl⟩ := BinaryOp.ofToken?_eq_some_iff.mp hop
    refine .cons (Nat.le_succ _) (.bind (hoperand _) ?_ fun rights right rest hright => ?_)
    · intro _ rights right hright
      exact .of_language (.binary op hleft hright)
    · refine (ih right rest (.binary op hleft hright)).imp ?_
      intro more expr hexpr
      simpa using hexpr
  | case2 => exact .done (by rwa [List.append_nil])
  | case3 => exact .done (by rwa [List.append_nil])

theorem reads_readLayer (tokens : List Token) :
    Reads (Derives (.operators level) depth) room tokens (readLayer level operand tokens) :=
  .bind (hoperand tokens) (fun _ _ _ hleft => .of_language (.operand hleft))
    fun _ _ rest hleft => reads_readOperations level hoperand rest (.operand hleft) rest

end Layers

theorem reads_readComparison {depth room : Nat} {inner : Reader Expr}
    (hinner : ∀ tokens, Reads (Derives .exp depth) room tokens (inner tokens))
    (tokens : List Token) :
    Reads (Derives (.operators .comparison) depth) (room + 1) tokens
      (readComparison inner tokens) :=
  reads_readLayer .comparison (reads_readLayer .sum (reads_readLayer .product
    (reads_readIndexed hinner))) tokens

theorem reads_readDisjunction {depth room : Nat} {negation : Reader Expr}
    (hnegation : ∀ tokens, Reads (Derives .negation depth) room tokens (negation tokens))
    (tokens : List Token) :
    Reads (Derives (.operators .disjunction) depth) room tokens
      (readDisjunction negation tokens) :=
  reads_readLayer .disjunction (reads_readLayer .conjunction hnegation) tokens

/-! ## Nesting -/

theorem reads_refuseDepth {α : Type} (language : List Token → α → Prop) (tokens : List Token) :
    Reads language 0 tokens (refuseDepth tokens) :=
  .tooDeep (List.nil_append tokens).symm (Nat.zero_le _)

theorem reads_readPrefixed {depth : Nat} {deeper inner : Reader Expr}
    (hdeeper : ∀ tokens, Reads (fun passed operand => Derives .negation depth
      (.keyword .not :: passed) (.not operand)) depth tokens (deeper tokens))
    (hinner : ∀ tokens, Reads (Derives .exp depth) depth tokens (inner tokens))
    (tokens : List Token) :
    Reads (Derives .negation depth) (depth + 1) tokens
      (readPrefixed deeper (readComparison inner) tokens) := by
  unfold readPrefixed
  split
  · exact .cons (Nat.le_refl _) (.map (hdeeper _) fun passed operand hoperand => hoperand)
  · exact (reads_readComparison hinner _).imp fun _ _ => .comparison

/-- The readers of two neighbouring levels, the one that reads operands of `and` being the reader
of the expressions one level further up. -/
theorem reads_readNegation (budget : Nat) :
    (∀ tokens, Reads (Derives .negation budget) (budget + 1) tokens (readNegation budget tokens)) ∧
      ∀ tokens, Reads (Derives .exp budget) budget tokens (read budget tokens) := by
  induction budget with
  | zero =>
    have hread := fun tokens => reads_refuseDepth (Derives .exp 0) tokens
    exact ⟨reads_readPrefixed (fun tokens => reads_refuseDepth _ tokens) hread, hread⟩
  | succ budget ih =>
    have hread (tokens : List Token) :
        Reads (Derives .exp (budget + 1)) (budget + 1) tokens (read (budget + 1) tokens) :=
      (reads_readDisjunction ih.1 tokens).imp fun _ _ => .exp
    refine ⟨reads_readPrefixed (fun tokens => ?_) hread, hread⟩
    exact (ih.1 tokens).imp fun _ _ => .not

theorem reads_read (budget : Nat) (tokens : List Token) :
    Reads (Derives .exp budget) budget tokens (read budget tokens) :=
  (reads_readNegation budget).2 tokens

end Expr

namespace Stmt

/-! ## Statements -/

/-- Tokens denote statements and end with the brace that closes them. -/
def DerivesClosed (depth : Nat) (tokens : List Token) (body : List Stmt) : Prop :=
  ∃ stmts, tokens = stmts ++ [.symbol .closeBrace] ∧ DerivesAll depth stmts body

section Readers

variable {depth : Nat} {expr : Reader Expr} {inner : Reader Stmt}
  (hexpr : ∀ tokens, Reads (Expr.Derives .exp depth) depth tokens (expr tokens))
  (hinner : ∀ tokens, Reads (Derives depth) (depth - 1) tokens (inner tokens))

include hinner in
theorem reads_readBlock (rounds tokens : List Token) :
    Reads (DerivesClosed depth) (depth - 1) tokens (readBlock inner rounds tokens) := by
  have hempty : DerivesClosed depth [.symbol .closeBrace] [] := ⟨[], rfl, .nil⟩
  fun_induction readBlock inner rounds tokens with
  | case1 => exact .cons (Nat.le_succ _) (.done hempty)
  | case2 rounds round token rest _ ih =>
    refine .bind (hinner _) ?_ fun firsts first rest hfirst => ?_
    · intro _ firsts first hfirst
      exact .of_mark ⟨firsts, rfl, by simpa using DerivesAll.cons hfirst .nil⟩
    · refine .map (ih rest) fun passed body hclosed => ?_
      obtain ⟨stmts, rfl, hbody⟩ := hclosed
      exact ⟨_, (List.append_assoc _ _ _).symm, .cons hfirst hbody⟩
  | case3 => exact .refused fun _ => .of_mark hempty

/-- Tokens denote a condition between parentheses and the statement that it governs. -/
def DerivesGuarded (depth : Nat) (tokens : List Token) (parts : Expr × Stmt) : Prop :=
  ∃ conditions bodies,
    tokens = .symbol .openParen :: conditions ++ .symbol .closeParen :: bodies ∧
      Expr.Derives .exp depth conditions parts.1 ∧ Derives depth bodies parts.2

include hexpr hinner in
theorem reads_readGuarded (word : Keyword) (tokens : List Token) :
    Reads (DerivesGuarded depth) (depth - 1) tokens (readGuarded expr inner word tokens) := by
  -- Fillers for a whole body are at hand wherever there is any room at all.
  have hclose {n : Nat} {conditions : List Token} {condition : Expr} (hroom : n < depth - 1)
      (hcondition : Expr.Derives .exp depth conditions condition) :
      Completable (DerivesGuarded depth) (.symbol .openParen :: conditions) :=
    ⟨[.symbol .closeParen, .symbol .openBrace, .symbol .closeBrace], (condition, .block []),
      by simp [Token.Filler], conditions, _, rfl, hcondition, .empty_block (by omega)⟩
  refine .expect (Nat.le_succ _) (fun hroom => ?_) fun rest => ?_
  · have hx : Expr.Derives .exp depth [.name "x"] (.var "x") := .name_x (by omega)
    exact .of_append [.symbol .openParen, .name "x"] (by simp [Token.Filler]) (hclose hroom hx)
  refine .bind ((hexpr rest).of_room_le (by omega))
    (fun hroom conditions condition hcondition => hclose hroom hcondition)
    fun conditions condition rest hcondition => ?_
  refine .expect (Nat.le_succ _) (fun hroom => ?_) fun rest => ?_
  · exact hclose hroom hcondition
  refine .map (hinner rest) fun bodies body hbody => ?_
  exact ⟨conditions, bodies, by simp, hcondition, hbody⟩

include hexpr hinner in
/-- A condition and the statement that it governs, after the word that says how. -/
theorem reads_governed {word : Keyword} {wrap : Expr → Stmt → Stmt}
    (hwrap : ∀ {conditions bodies condition body},
      Expr.Derives .exp depth conditions condition → Derives depth bodies body →
      Derives (depth + 1)
        (.keyword word :: .symbol .openParen :: conditions ++ .symbol .closeParen :: bodies)
        (wrap condition body)) (tokens : List Token) :
    Reads (Derives (depth + 1)) depth (.keyword word :: tokens)
      (readGuarded expr inner word tokens >>= fun ((condition, body), rest) =>
        .ok (wrap condition body, rest)) := by
  have hparts : ∀ passed parts, DerivesGuarded depth passed parts →
      Derives (depth + 1) (.keyword word :: passed) (wrap parts.1 parts.2) := by
    intro passed parts hguarded
    obtain ⟨conditions, bodies, rfl, hcondition, hbody⟩ := hguarded
    exact hwrap hcondition hbody
  refine .cons (by omega) (.bind (reads_readGuarded hexpr hinner word tokens) ?_ ?_)
  · intro _ passed parts hguarded
    exact .of_language (hparts passed parts hguarded)
  · intro passed parts rest hguarded
    exact .done (by simpa using hparts passed parts hguarded)

/-- Tokens denote a procedure definition without the word that heads it. -/
def DerivesProc (depth : Nat) (tokens : List Token) (stmt : Stmt) : Prop :=
  Derives (depth + 1) (.keyword .proc :: tokens) stmt

include hexpr hinner in
theorem reads_readProc (tokens : List Token) :
    Reads (DerivesProc depth) (depth - 1) tokens (readProc expr inner tokens) := by
  have hclose {n : Nat} (name : String) {items : List Token} {parameters : List Expr}
      (hroom : n < depth - 1) (hparameters : Expr.DerivesList depth items parameters) :
      Completable (DerivesProc depth)
        (.name name :: .symbol .openParen :: items ++ [.symbol .closeParen]) := by
    refine ⟨[.symbol .openBrace, .symbol .closeBrace], .proc name parameters (.block []),
      by simp [Token.Filler], ?_⟩
    have hbody : Derives depth [.symbol .openBrace, .symbol .closeBrace] (.block []) :=
      .empty_block (by omega)
    simpa [DerivesProc] using Derives.proc name hparameters hbody
  unfold readProc
  split
  · next name rest =>
    refine .cons (Nat.le_succ _) (.expect (Nat.le_succ _) (fun hroom => ?_) fun rest => ?_)
    · exact .of_append [.symbol .openParen, .symbol .closeParen] (by simp [Token.Filler])
        (hclose name hroom .empty)
    refine .bind ((Expr.reads_readList hexpr _ _ rest).of_room_le (by omega)) ?_ ?_
    · intro hroom passed parameters hparameters
      obtain ⟨items, rfl, hitems⟩ := hparameters
      exact hclose name hroom hitems
    · intro passed parameters rest hparameters
      obtain ⟨items, rfl, hitems⟩ := hparameters
      refine .map (hinner rest) fun bodies body hbody => ?_
      simpa [DerivesProc] using Derives.proc name hitems hbody
  · refine .refused fun hroom => ?_
    exact .of_append [.name "x", .symbol .openParen, .symbol .closeParen] (by simp [Token.Filler])
      (hclose "x" hroom .empty)

include hexpr in
theorem reads_readCall (name : String) (tokens : List Token) :
    Reads (fun more stmt => Derives (depth + 1) (.name name :: .symbol .openParen :: more) stmt)
      depth tokens (readCall expr name tokens) := by
  refine .bind (Expr.reads_readList hexpr _ _ tokens) ?_ ?_
  · intro _ passed arguments harguments
    obtain ⟨items, rfl, hitems⟩ := harguments
    exact .of_mark (by simpa using Derives.call name hitems)
  · intro passed arguments rest harguments
    obtain ⟨items, rfl, hitems⟩ := harguments
    have hcall : Derives (depth + 1) (.name name :: .symbol .openParen ::
        (items ++ [.symbol .closeParen] ++ [.symbol .semicolon])) (.call name arguments) := by
      simpa using Derives.call name hitems
    exact .expect (Nat.le_succ _) (fun _ => .of_mark hcall) fun rest => .done hcall

include hexpr in
theorem reads_readAssign (tokens : List Token) :
    Reads (Derives (depth + 1)) depth tokens (readAssign expr tokens) := by
  have hclose {n : Nat} {targets : List Token} {target : Expr} (hroom : n < depth)
      (htarget : Expr.Derives .exp depth targets target) :
      Completable (Derives (depth + 1)) targets :=
    ⟨[.symbol .equals, .name "x", .symbol .semicolon], .assign target (.var "x"),
      by simp [Token.Filler], by simpa using Derives.assign htarget (.name_x (by omega))⟩
  refine .bind (hexpr tokens) (fun hroom _ _ htarget => hclose hroom htarget)
    fun targets target rest htarget => ?_
  refine .expect (Nat.le_succ _) (fun hroom => hclose hroom htarget) fun rest => ?_
  refine .bind (hexpr rest) (fun _ values value hvalue => ?_) fun values value rest hvalue => ?_
  · exact .of_mark (by simpa using Derives.assign htarget hvalue)
  · have hassign : Derives (depth + 1)
        (targets ++ .symbol .equals :: (values ++ [.symbol .semicolon]))
        (.assign target value) := by
      simpa using Derives.assign htarget hvalue
    exact .expect (Nat.le_succ _) (fun _ => .of_mark hassign) fun rest => .done hassign

include hexpr hinner in
theorem reads_readForm (tokens : List Token) :
    Reads (Derives (depth + 1)) depth tokens (readForm expr inner tokens) := by
  have hroom : depth ≤ depth - 1 + 1 := by omega
  unfold readForm
  split
  · refine .cons (Nat.le_succ _) (.bind (hexpr _) ?_ fun values value rest hvalue => ?_)
    · intro _ values value hvalue
      exact .of_mark (.print hvalue)
    · exact .expect (Nat.le_succ _) (fun _ => .of_mark (.print hvalue))
        fun _ => .done (.print hvalue)
  · refine .cons hroom (.map (reads_readBlock hinner _ _) ?_)
    intro passed body hclosed
    obtain ⟨stmts, rfl, hbody⟩ := hclosed
    exact .block hbody
  · exact reads_governed hexpr hinner (fun hcondition hbody => .cond hcondition hbody) _
  · exact reads_governed hexpr hinner (fun hcondition hbody => .loop hcondition hbody) _
  · exact .cons hroom (reads_readProc hexpr hinner _)
  · exact .cons (Nat.le_succ _) (.cons (Nat.le_succ _) (reads_readCall hexpr _ _))
  · exact reads_readAssign hexpr _

end Readers

/-! ## Nesting -/

theorem reads_read (budget : Nat) (tokens : List Token) :
    Reads (Derives budget) (budget - 1) tokens (read budget tokens) := by
  induction budget generalizing tokens with
  | zero => exact Expr.reads_refuseDepth _ tokens
  | succ budget ih => exact reads_readForm (Expr.reads_read budget) ih tokens

/-- A statement is read from tokens if it is read from them and leaves none. -/
theorem ofTokens_eq_ok_iff {limit : Nat} {tokens : List Token} {stmt : Stmt} :
    ofTokens limit tokens = .ok stmt ↔ read limit tokens = .ok (stmt, []) := by
  unfold ofTokens
  cases read limit tokens with
  | error refusal => simp [bind, Except.bind]
  | ok pair =>
    obtain ⟨stmt', rest⟩ := pair
    cases rest <;> simp [bind, Except.bind]

theorem derives_of_ofTokens {limit : Nat} {tokens : List Token} {stmt : Stmt}
    (h : ofTokens limit tokens = .ok stmt) : Derives limit tokens stmt := by
  have hread := reads_read limit tokens
  rw [ofTokens_eq_ok_iff.mp h] at hread
  obtain ⟨passed, rfl, hderives⟩ := hread.suffix
  rwa [List.append_nil]

theorem completable_of_ofTokens {limit : Nat} {tokens : List Token} {refusal : Refusal}
    (hlimit : tokens.length + 2 ≤ limit) (h : ofTokens limit tokens = .error refusal) :
    ∃ passed expectation, refusal = .unexpected expectation refusal.rest ∧
      tokens = passed ++ refusal.rest ∧ Completable (Derives limit) passed := by
  have hread := reads_read limit tokens
  unfold ofTokens at h
  generalize read limit tokens = outcome at hread h
  cases hread with
  | @ok passed rest stmt htokens hderives =>
    cases rest with
    | nil => simp [bind, Except.bind] at h
    | cons token rest =>
      obtain rfl : Refusal.unexpected .endOfInput (token :: rest) = refusal := by
        simpa [bind, Except.bind] using h
      exact ⟨passed, _, rfl, htokens, .of_language hderives⟩
  | @unexpected passed rest expectation htokens hcompletable =>
    obtain rfl : Refusal.unexpected expectation rest = refusal := by
      simpa [bind, Except.bind] using h
    exact ⟨passed, _, rfl, htokens, hcompletable (by omega)⟩
  | tooDeep htokens hdeep => omega

end Stmt

end ScriptFacts
