import ScriptFacts.Proofs.Program.Soundness

/-!
# Readers find every derivation

A reader of a layer, put before tokens that the layer derives and others that cannot go on with
them, reads exactly the former. An expression ends where the next token is no operator of its layer
or a tighter one; a statement ends by itself. So no text of the grammar is lost by looking at one
token, or at two where a statement begins with a name.

* `Expr.accepts_read`, `Stmt.accepts_read`: the readers with a budget.
* `Stmt.ofTokens_eq_ok_iff_derives`: what is read is what is derived.
* `Stmt.Derives.unique`: tokens denote at most one statement, whatever the depth.
-/
namespace ScriptFacts

/-! ## Where an expression ends -/

/-- The layer to whose texts a token adds something. -/
def Token.joins? (token : Token) : Option Layer :=
  if token = .symbol .openBracket then some .indexed
  else (BinaryOp.all.find? fun op => op.token = token).map fun op => .operators op.level

/-- The next token adds nothing to a text of the layer. -/
def Layer.EndsBefore (layer : Layer) (rest : List Token) : Prop :=
  ∀ token ∈ rest.head?, ∀ joined ∈ token.joins?, joined.tightness < layer.tightness

theorem BinaryOp.joins?_token (op : BinaryOp) : op.token.joins? = some (.operators op.level) := by
  cases op <;> decide

namespace Layer.EndsBefore

variable {layer : Layer} {rest : List Token}

theorem of_le {tighter : Layer} (h : layer.EndsBefore rest)
    (hle : layer.tightness ≤ tighter.tightness) : tighter.EndsBefore rest :=
  fun token htoken joined hjoined => Nat.lt_of_lt_of_le (h token htoken joined hjoined) hle

theorem nil : layer.EndsBefore [] := by
  intro token htoken
  simp at htoken

/-- Every layer ends before a token that joins nothing. -/
theorem of_joins?_eq_none {token : Token} (h : token.joins? = none) :
    layer.EndsBefore (token :: rest) := by
  intro next hnext joined hjoined
  obtain rfl : token = next := by simpa using hnext
  rw [h] at hjoined
  cases hjoined

theorem atom (rest : List Token) : Layer.atom.EndsBefore rest := by
  intro token _ joined hjoined
  unfold Token.joins? at hjoined
  split at hjoined
  · obtain rfl : Layer.indexed = joined := by simpa using hjoined
    decide
  · simp only [Option.mem_def, Option.map_eq_some_iff] at hjoined
    obtain ⟨op, _, rfl⟩ := hjoined
    cases op <;> decide

/-- The operands of an operator end before it. -/
theorem operand (op : BinaryOp) (rest : List Token) :
    op.level.operand.EndsBefore (op.token :: rest) := by
  intro token htoken joined hjoined
  obtain rfl : op.token = token := by simpa using htoken
  rw [op.joins?_token] at hjoined
  obtain rfl : Layer.operators op.level = joined := by simpa using hjoined
  exact op.level.tightness_lt_operand

theorem head_ne_openBracket (h : layer.EndsBefore rest)
    (hle : layer.tightness ≤ Layer.indexed.tightness) :
    rest.head? ≠ some (.symbol .openBracket) := by
  intro hhead
  have := h _ hhead .indexed (by decide)
  omega

theorem ofToken?_eq_none {level : Level} {token : Token}
    (h : (Layer.operators level).EndsBefore (token :: rest)) :
    BinaryOp.ofToken? level token = none := by
  cases hop : BinaryOp.ofToken? level token with
  | none => rfl
  | some op =>
    obtain ⟨rfl, rfl⟩ := BinaryOp.ofToken?_eq_some_iff.mp hop
    exact absurd (h _ rfl _ op.joins?_token) (Nat.lt_irrefl _)

end Layer.EndsBefore

namespace Expr

/-- A reader finds every derivation of a layer, whatever comes next that adds nothing to it. -/
def Accepts (layer : Layer) (depth : Nat) (reader : Reader Expr) : Prop :=
  ∀ {tokens : List Token} {expr : Expr} (rest : List Token), Derives layer depth tokens expr →
    layer.EndsBefore rest → reader (tokens ++ rest) = .ok (expr, rest)

/-! ## Lists -/

theorem DerivesItems.uncons {depth : Nat} {tokens : List Token} {exprs : List Expr}
    (h : DerivesItems depth tokens exprs) :
    ∃ firsts mores first more, tokens = firsts ++ mores ∧ exprs = first :: more ∧
      Derives .exp depth firsts first ∧ DerivesMore depth mores more := by
  cases h with
  | one inner => exact ⟨tokens, [], _, [], by simp, rfl, inner, .nil⟩
  | more hfirst hrest => exact ⟨_, _, _, _, rfl, rfl, hfirst, .comma hrest⟩

/-- The marks that close lists. -/
def Closes (close : Symbol) : Prop := close = .closeParen ∨ close = .closeBracket

theorem DerivesMore.endsBefore {depth : Nat} {mores : List Token} {more : List Expr}
    {close : Symbol} (h : DerivesMore depth mores more) (hclose : Closes close)
    (rest : List Token) :
    Layer.exp.EndsBefore (mores ++ .symbol close :: rest) := by
  cases h with
  | nil => rcases hclose with rfl | rfl <;> exact .of_joins?_eq_none (by decide)
  | comma _ => exact .of_joins?_eq_none (by decide)

section Readers

variable {depth : Nat} {inner : Reader Expr} (hinner : Accepts .exp depth inner)

include hinner

theorem accepts_readMore {close : Symbol} (hclose : Closes close) {rest rounds mores : List Token}
    {more : List Expr} (hmore : DerivesMore depth mores more)
    (hrounds : (mores ++ .symbol close :: rest).length ≤ rounds.length) :
    readMore inner rounds (mores ++ .symbol close :: rest) = .ok (more, .symbol close :: rest) := by
  induction rounds generalizing mores more with
  | nil => simp at hrounds
  | cons round rounds ih =>
    cases hmore with
    | nil => rcases hclose with rfl | rfl <;> rfl
    | comma hitems =>
      obtain ⟨firsts, mores, first, more, rfl, rfl, hfirst, hmore⟩ := hitems.uncons
      have hread := hinner _ hfirst (hmore.endsBefore hclose rest)
      have hrest := ih hmore (by simp at hrounds ⊢; omega)
      rw [List.cons_append, List.append_assoc, readMore, hread]
      show (readMore inner rounds (mores ++ .symbol close :: rest) >>= _) = _
      rw [hrest]
      rfl

theorem accepts_readList {close : Symbol} (hclose : Closes close) (place : Place)
    (rest : List Token) {tokens : List Token} {exprs : List Expr}
    (h : DerivesClosed close depth tokens exprs) :
    readList inner close place (tokens ++ rest) = .ok (exprs, rest) := by
  obtain ⟨items, rfl, hitems⟩ := h
  rw [List.append_assoc]
  cases hitems with
  | empty => simp [readList]
  | some hitems =>
    obtain ⟨firsts, mores, first, more, rfl, rfl, hfirst, hmore⟩ := hitems.uncons
    have hne :
        (firsts ++ mores ++ ([Token.symbol close] ++ rest)).head? ≠ some (.symbol close) := by
      obtain ⟨token, _, rfl, hbegins⟩ := hfirst.first
      rcases hclose with rfl | rfl <;> rintro ⟨⟩ <;> simp [Layer.Begins] at hbegins
    rw [readList, if_neg hne, List.append_assoc, List.singleton_append,
      hinner _ hfirst (hmore.endsBefore hclose rest)]
    show (readMore inner _ (mores ++ .symbol close :: rest) >>= _) = _
    rw [accepts_readMore hinner hclose hmore (Nat.le_refl _)]
    simp [bind, Except.bind, expect]

/-! ## Atoms and index suffixes -/

theorem accepts_readAtom : Accepts .atom depth (readAtom inner) := by
  intro tokens expr rest h _
  cases h with
  | parenthesized h =>
    have hend : Layer.exp.EndsBefore (.symbol .closeParen :: rest) := .of_joins?_eq_none (by decide)
    rw [List.append_assoc, List.cons_append, List.singleton_append, readAtom, hinner _ h hend]
    rfl
  | array h =>
    have hclosed := (⟨_, rfl, h⟩ : DerivesClosed .closeBracket depth _ _)
    rw [List.cons_append, List.cons_append, readAtom,
      accepts_readList hinner (.inr rfl) _ _ hclosed]
    rfl
  | int value => rfl
  | string text => rfl
  | var name => rfl

/-- A chain of suffixes is read up to its end, with rounds to spare for what comes next. -/
theorem readIndexed_append {tokens : List Token} {expr : Expr} (rest : List Token) :
    Derives .indexed depth tokens expr → ∃ rounds, rest.length ≤ rounds.length ∧
      readIndexed inner (tokens ++ rest) = readSuffixes inner rounds expr rest
  | .atom h => by
    refine ⟨rest, Nat.le_refl _, ?_⟩
    rw [readIndexed, accepts_readAtom hinner _ h (.atom rest)]
    rfl
  | @Derives.index _ bases positions base position hbase hposition => by
    obtain ⟨rounds, hrounds, hread⟩ := readIndexed_append
      (.symbol .openBracket :: (positions ++ .symbol .closeBracket :: rest)) hbase
    have hend : Layer.exp.EndsBefore (.symbol .closeBracket :: rest) :=
      .of_joins?_eq_none (by decide)
    cases rounds with
    | nil => simp at hrounds
    | cons round rounds =>
      refine ⟨rounds, by simp at hrounds; omega, ?_⟩
      rw [List.append_assoc, List.append_assoc, List.cons_append, List.singleton_append, hread,
        readSuffixes, hinner _ hposition hend]
      rfl

theorem accepts_readIndexed : Accepts .indexed depth (readIndexed inner) := by
  intro tokens expr rest h hend
  obtain ⟨rounds, _, hread⟩ := readIndexed_append hinner rest h
  have hne := hend.head_ne_openBracket (Nat.le_refl _)
  rw [hread]
  unfold readSuffixes
  split
  · simp at hne
  · rfl

end Readers

/-! ## Binary layers -/

/-- A chain of operators is read up to its end, with rounds to spare for what comes next. -/
theorem readLayer_append {layer : Layer} {depth : Nat} {operand : Reader Expr}
    {tokens : List Token} {expr : Expr} :
    Derives layer depth tokens expr → ∀ {level : Level} (rest : List Token),
      layer = .operators level → Accepts level.operand depth operand →
      level.operand.EndsBefore rest → ∃ rounds, rest.length ≤ rounds.length ∧
        readLayer level operand (tokens ++ rest) = readOperations level operand rounds expr rest
  | .operand h, level, rest, hlayer, hoperand, hend => by
    cases hlayer
    refine ⟨rest, Nat.le_refl _, ?_⟩
    rw [readLayer, hoperand _ h hend]
    rfl
  | @Derives.binary _ lefts rights left right op hleft hright, level, rest, hlayer, hoperand,
      hend => by
    cases hlayer
    obtain ⟨rounds, hrounds, hread⟩ :=
      readLayer_append hleft (op.token :: (rights ++ rest)) rfl hoperand (.operand op _)
    have hop : BinaryOp.ofToken? op.level op.token = some op :=
      BinaryOp.ofToken?_eq_some_iff.mpr ⟨rfl, rfl⟩
    cases rounds with
    | nil => simp at hrounds
    | cons round rounds =>
      refine ⟨rounds, by simp at hrounds; omega, ?_⟩
      rw [List.append_assoc, List.cons_append, hread, readOperations, hop, hoperand _ hright hend]
      rfl

theorem accepts_readLayer (level : Level) {depth : Nat} {operand : Reader Expr}
    (hoperand : Accepts level.operand depth operand) :
    Accepts (.operators level) depth (readLayer level operand) := by
  intro tokens expr rest h hend
  obtain ⟨rounds, _, hread⟩ := readLayer_append h rest rfl hoperand
    (hend.of_le (Nat.le_of_lt level.tightness_lt_operand))
  rw [hread]
  unfold readOperations
  split
  · rw [hend.ofToken?_eq_none]
  · rfl

theorem accepts_readComparison {depth : Nat} {inner : Reader Expr}
    (hinner : Accepts .exp depth inner) :
    Accepts (.operators .comparison) depth (readComparison inner) :=
  accepts_readLayer .comparison (accepts_readLayer .sum (accepts_readLayer .product
    (accepts_readIndexed hinner)))

theorem accepts_readDisjunction {depth : Nat} {negation : Reader Expr}
    (hnegation : Accepts .negation depth negation) :
    Accepts (.operators .disjunction) depth (readDisjunction negation) :=
  accepts_readLayer .disjunction (accepts_readLayer .conjunction hnegation)

/-! ## Nesting -/

/-- The operand of a `not` has one level less, so there is none at depth 0. -/
theorem accepts_readPrefixed {depth : Nat} {deeper inner : Reader Expr}
    (hdeeper : ∀ less, depth = less + 1 → Accepts .negation less deeper)
    (hinner : Accepts .exp depth inner) :
    Accepts .negation depth (readPrefixed deeper (readComparison inner)) := by
  intro tokens expr rest h hend
  cases h with
  | not h =>
    rw [List.cons_append, readPrefixed, hdeeper _ rfl rest h hend]
    rfl
  | comparison h =>
    have hread := accepts_readComparison hinner rest h (hend.of_le (by decide))
    obtain ⟨token, more, rfl, hbegins⟩ := h.first
    rw [← hread]
    unfold readPrefixed
    split
    · next heq =>
      obtain ⟨rfl, -⟩ := List.cons.inj heq
      exact absurd hbegins.2 (by decide)
    · rfl

theorem accepts_readNegation (budget : Nat) :
    Accepts .negation budget (readNegation budget) ∧ Accepts .exp budget (read budget) := by
  induction budget with
  | zero =>
    have hread : Accepts .exp 0 (read 0) := by
      intro tokens expr rest h
      nomatch h
    exact ⟨accepts_readPrefixed (fun _ h => by cases h) hread, hread⟩
  | succ budget ih =>
    have hread : Accepts .exp (budget + 1) (read (budget + 1)) := by
      intro tokens expr rest h hend
      cases h with
      | exp h => exact accepts_readDisjunction ih.1 rest h (hend.of_le (by decide))
    refine ⟨accepts_readPrefixed (fun less hless => ?_) hread, hread⟩
    obtain rfl : budget = less := by omega
    exact ih.1

theorem accepts_read (budget : Nat) : Accepts .exp budget (read budget) :=
  (accepts_readNegation budget).2

end Expr

/-- A token that tells the form of a statement by itself. -/
def Token.headsForm : Token → Bool
  | .keyword .print | .keyword .cond | .keyword .loop | .keyword .proc | .symbol .openBrace => true
  | _ => false

theorem Layer.Begins.headsForm_eq_false {layer : Layer} {token : Token} (h : layer.Begins token) :
    token.headsForm = false := by
  cases token with
  | int value | string text | name text => rfl
  | keyword word =>
    obtain ⟨rfl, -⟩ := h
    rfl
  | symbol mark => rcases h with rfl | rfl <;> rfl

namespace Stmt

/-! ## Statements -/

/-- A reader finds every derivation of a statement, whatever comes next. -/
def Accepts (depth : Nat) (reader : Reader Stmt) : Prop :=
  ∀ {tokens : List Token} {stmt : Stmt} (rest : List Token), Derives depth tokens stmt →
    reader (tokens ++ rest) = .ok (stmt, rest)

theorem Derives.head_ne_closeBrace {depth : Nat} {tokens : List Token} {stmt : Stmt}
    (h : Derives depth tokens stmt) (rest : List Token) :
    ∃ token more, tokens ++ rest = token :: more ∧ token ≠ .symbol .closeBrace := by
  cases h with
  | assign htarget hvalue =>
    obtain ⟨token, more, rfl, hbegins⟩ := htarget.first
    refine ⟨token, _, rfl, ?_⟩
    intro hclose
    subst hclose
    simp [Layer.Begins] at hbegins
  | print | block | cond | loop | proc | call => exact ⟨_, _, rfl, by simp⟩

section Readers

variable {depth : Nat} {expr : Reader Expr} {inner : Reader Stmt}
  (hexpr : Expr.Accepts .exp depth expr) (hinner : Accepts depth inner)

include hinner in
theorem accepts_readBlock {rest rounds stmts : List Token} {body : List Stmt}
    (hbody : DerivesAll depth stmts body)
    (hrounds : (stmts ++ .symbol .closeBrace :: rest).length ≤ rounds.length) :
    readBlock inner rounds (stmts ++ .symbol .closeBrace :: rest) = .ok (body, rest) := by
  induction rounds generalizing stmts body with
  | nil => simp at hrounds
  | cons round rounds ih =>
    cases hbody with
    | nil => rfl
    | @cons _ firsts rests first more hfirst hrest =>
      have hlen : (rests ++ .symbol .closeBrace :: rest).length ≤ rounds.length := by
        have := List.length_pos_iff.mpr hfirst.ne_nil
        simp at hrounds ⊢
        omega
      have hread := hinner (rests ++ .symbol .closeBrace :: rest) hfirst
      have hmore := ih hrest hlen
      obtain ⟨token, more, htokens, hne⟩ :=
        hfirst.head_ne_closeBrace (rests ++ .symbol .closeBrace :: rest)
      rw [htokens] at hread
      rw [List.append_assoc, htokens, readBlock, hread]
      · show (readBlock inner rounds (rests ++ .symbol .closeBrace :: rest) >>= _) = _
        rw [hmore]
        rfl
      · exact hne

include hexpr in
theorem accepts_readGuarded (word : Keyword) {conditions bodies rest : List Token}
    {condition : Expr} {body : Stmt} (hcondition : Expr.Derives .exp depth conditions condition)
    (hbody : inner bodies = .ok (body, rest)) :
    readGuarded expr inner word
        (.symbol .openParen :: (conditions ++ .symbol .closeParen :: bodies))
      = .ok ((condition, body), rest) := by
  have hend : Layer.exp.EndsBefore (.symbol .closeParen :: bodies) := .of_joins?_eq_none (by decide)
  rw [readGuarded]
  show (expr (conditions ++ .symbol .closeParen :: bodies) >>= _) = _
  rw [hexpr _ hcondition hend]
  show (inner bodies >>= _) = _
  rw [hbody]
  rfl

include hexpr in
theorem accepts_readAssign {targets values : List Token} {target value : Expr} (rest : List Token)
    (htarget : Expr.Derives .exp depth targets target)
    (hvalue : Expr.Derives .exp depth values value) :
    readAssign expr (targets ++ .symbol .equals :: values ++ [.symbol .semicolon] ++ rest)
      = .ok (.assign target value, rest) := by
  have hequals : Layer.exp.EndsBefore
      (.symbol .equals :: (values ++ .symbol .semicolon :: rest)) := .of_joins?_eq_none (by decide)
  have hsemicolon : Layer.exp.EndsBefore (.symbol .semicolon :: rest) :=
    .of_joins?_eq_none (by decide)
  rw [List.append_assoc, List.append_assoc, List.cons_append, List.singleton_append, readAssign,
    hexpr _ htarget hequals]
  show (expr (values ++ .symbol .semicolon :: rest) >>= _) = _
  rw [hexpr _ hvalue hsemicolon]
  rfl

/-- What no word and no brace heads, nor a name before a parenthesis, is read as an assignment. -/
theorem readForm_eq_readAssign {tokens : List Token}
    (hform : ∀ token, tokens.head? = some token → token.headsForm = false)
    (hcall : ∀ name more, tokens ≠ .name name :: .symbol .openParen :: more) :
    readForm expr inner tokens = readAssign expr tokens := by
  unfold readForm
  split
  · exact absurd (hform _ rfl) (by decide)
  · exact absurd (hform _ rfl) (by decide)
  · exact absurd (hform _ rfl) (by decide)
  · exact absurd (hform _ rfl) (by decide)
  · exact absurd (hform _ rfl) (by decide)
  · exact absurd rfl (hcall _ _)
  · rfl

include hexpr hinner in
theorem accepts_readForm : Accepts (depth + 1) (readForm expr inner) := by
  intro tokens stmt rest h
  cases h with
  | @print _ values value hvalue =>
    have hend : Layer.exp.EndsBefore (.symbol .semicolon :: rest) := .of_joins?_eq_none (by decide)
    rw [List.append_assoc, List.cons_append, List.singleton_append, readForm, hexpr _ hvalue hend]
    rfl
  | @assign _ targets values target value htarget hvalue =>
    have hread := accepts_readAssign hexpr rest htarget hvalue
    obtain ⟨token, more, rfl, hbegins⟩ := htarget.first
    rw [← hread]
    refine readForm_eq_readAssign ?_ ?_
    · intro first hfirst
      obtain rfl : token = first := by simpa using hfirst
      exact hbegins.headsForm_eq_false
    · intro name after heq
      have hequals : (Token.symbol .equals :: (values ++ .symbol .semicolon :: rest)).head?
          ≠ some (.symbol .openParen) := by simp
      exact htarget.tail_head_ne hequals (by simpa using heq) rfl
  | @block _ tokens body hbody =>
    rw [List.append_assoc, List.cons_append, List.singleton_append, readForm,
      accepts_readBlock hinner hbody (Nat.le_refl _)]
    rfl
  | @cond _ conditions bodies condition body hcondition hbody =>
    rw [List.append_assoc, List.cons_append, List.cons_append, List.cons_append, readForm,
      accepts_readGuarded hexpr .cond hcondition (hinner rest hbody)]
    rfl
  | @loop _ conditions bodies condition body hcondition hbody =>
    rw [List.append_assoc, List.cons_append, List.cons_append, List.cons_append, readForm,
      accepts_readGuarded hexpr .loop hcondition (hinner rest hbody)]
    rfl
  | @proc _ tokens bodies parameters body name hparameters hbody =>
    have hlist := Expr.accepts_readList hexpr (.inl rfl) .afterParameters (bodies ++ rest)
      ⟨tokens, rfl, hparameters⟩
    rw [List.append_assoc, List.cons_append, List.cons_append, List.cons_append, List.cons_append,
      readForm, readProc]
    show (Expr.readList expr .closeParen .afterParameters
      (tokens ++ .symbol .closeParen :: (bodies ++ rest)) >>= _) = _
    rw [List.append_cons, hlist]
    show (inner (bodies ++ rest) >>= _) = _
    rw [hinner rest hbody]
    rfl
  | @call _ tokens arguments name harguments =>
    have hlist := Expr.accepts_readList hexpr (.inl rfl) .afterArguments
      (.symbol .semicolon :: rest) ⟨tokens, rfl, harguments⟩
    rw [List.append_assoc, List.cons_append, List.cons_append, List.cons_append,
      List.singleton_append, readForm, readCall, List.append_cons, hlist]
    rfl

end Readers

/-! ## Nesting -/

theorem accepts_read (budget : Nat) : Accepts budget (read budget) := by
  induction budget with
  | zero =>
    intro tokens stmt rest h
    nomatch h
  | succ budget ih => exact accepts_readForm (Expr.accepts_read budget) ih

theorem ofTokens_of_derives {limit : Nat} {tokens : List Token} {stmt : Stmt}
    (h : Derives limit tokens stmt) : ofTokens limit tokens = .ok stmt := by
  have hread := accepts_read limit [] h
  rw [List.append_nil] at hread
  exact ofTokens_eq_ok_iff.mpr hread

/-- What is read under a limit is what has a derivation within it. -/
theorem ofTokens_eq_ok_iff_derives {limit : Nat} {tokens : List Token} {stmt : Stmt} :
    ofTokens limit tokens = .ok stmt ↔ Derives limit tokens stmt :=
  ⟨derives_of_ofTokens, ofTokens_of_derives⟩

/-- Tokens denote one statement at most, whatever the depths of its derivations. -/
theorem Derives.unique {depth depth' : Nat} {tokens : List Token} {stmt stmt' : Stmt}
    (h : Derives depth tokens stmt) (h' : Derives depth' tokens stmt') : stmt = stmt' := by
  have hread := ofTokens_of_derives (h.of_depth_le (Nat.le_max_left depth depth'))
  have hread' := ofTokens_of_derives (h'.of_depth_le (Nat.le_max_right depth depth'))
  rw [hread] at hread'
  exact Except.ok.inj hread'

end Stmt

end ScriptFacts
