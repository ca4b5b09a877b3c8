import ScriptFacts.Program.Descent
import ScriptFacts.Proofs.Program.Machine
import ScriptFacts.Proofs.Program.OnePass

/-!
# The descent comes to an end

Each routine of the descent follows the builder of the same name, wherever in a text it begins. A
loop goes round at most once for each token that remains, because what it repeats passes a token;
the recursion goes no deeper than the limit, because each call of it opens a level. So rounds for
all slots of a text and one level more than the limit are enough for every routine, and nothing but
a refusal stops the machine before it has a result.

* `Descent.simulates_statement`, `Descent.simulates_expression`: the recursive routines.
* `Descent.program_eq`: whole texts.
-/
namespace ScriptFacts.Descent

open Machine

variable {stream : TokenStream} {limit depth rounds : Nat} {arena : Arena} {tokens : List Token}
  {parser : Parser}

/-! ## Lists -/

section Expressions

variable {inner : Machine Nat} {builder : Builder Ast}
  (hinner : Simulates stream limit depth rooted builder inner)

include hinner

theorem follows_more {rounds : Nat} {room : List Token}
    (h : parser.At stream limit depth arena tokens) (hrounds : tokens.length < rounds)
    (hroom : tokens.length ≤ room.length) :
    Follows stream limit depth id (tokens.length + 1) (Expr.buildMore builder room arena tokens)
      (more inner rounds parser) := by
  induction rounds generalizing room tokens parser arena with
  | zero => omega
  | succ rounds ih =>
    refine .accept h ?_ ?_
    · rintro rest next rfl hnext
      obtain ⟨_, room, rfl⟩ := List.exists_cons_of_length_pos (Nat.zero_lt_of_lt hroom)
      simp only [List.length_cons] at hrounds hroom ⊢
      refine (hinner arena rest next hnext).bind ?_
      intro item rest after hafter hsize
      refine (ih hafter (by omega) (by omega)).bind ?_
      intro items rest last hlast hsize
      exact .done hlast (by omega)
    · intro hcomma next hnext
      have hstop : Expr.buildMore builder room arena tokens = .ok (([], arena), tokens) := by
        unfold Expr.buildMore
        split
        · simp at hcomma
        · rfl
      rw [hstop]
      exact .done hnext (Nat.le_refl _)

theorem simulates_list (hrounds : stream.size ≤ rounds) (close : Symbol) (place : Place) :
    Simulates stream limit depth id (Expr.buildList builder close place)
      (list rounds inner close place) := by
  intro arena tokens parser h
  refine .check h ?_ ?_
  · intro hclose next hnext
    obtain ⟨rest, rfl⟩ := List.head?_eq_some_iff.mp hclose
    have hbuilt : Expr.buildList builder close place arena (.symbol close :: rest)
        = (expect close (.commaOr close place) (.symbol close :: rest)
          >>= fun rest => .ok (([], arena), rest)) := by
      rw [Expr.buildList, if_pos hclose, expect_eq_ok_iff.mpr rfl]
      rfl
    rw [hbuilt]
    refine .demand hnext ?_
    intro rest after hafter hsize
    exact .done hafter hsize
  · intro hclose next hnext
    rw [Expr.buildList, if_neg hclose]
    refine (hinner arena tokens next hnext).bind ?_
    intro first rest after hafter hfirst
    have hlt := hafter.position_eq
    refine (follows_more hinner hafter (by omega) (Nat.le_refl _)).bind ?_
    intro items rest last hlast hitems
    refine .demand hlast ?_
    intro rest final hfinal hclosed
    exact .done hfinal (by omega)

/-! ## Atoms and index suffixes -/

theorem simulates_atom (hrounds : stream.size ≤ rounds) :
    Simulates stream limit depth rooted (Expr.buildAtom builder) (atom rounds inner) := by
  intro arena tokens parser h
  obtain ⟨slot, htoken, -, hpeek⟩ := yields_peek h
  refine hpeek.bind ?_
  intro next hnext
  rw [htoken]
  rcases tokens with _ | ⟨token, rest⟩
  · exact .refuse hnext rfl rfl
  have hpassed := passes_advance hnext
  cases token with
  | int value => exact hpassed.bind fun _ after hafter => .push hafter (by simp) _
  | string text => exact hpassed.bind fun _ after hafter => .push hafter (by simp) _
  | name text => exact hpassed.bind fun _ after hafter => .push hafter (by simp) _
  | keyword word => exact .refuse hnext rfl rfl
  | symbol mark =>
    cases mark with
    | openParen =>
      refine hpassed.bind ?_
      intro _ after hafter
      refine (hinner arena rest after hafter).bind ?_
      intro ast rest last hlast hinside
      refine .demand hlast ?_
      intro rest final hfinal hclosed
      exact .done hfinal (by rw [List.length_cons]; omega)
    | openBracket =>
      refine hpassed.bind ?_
      intro _ after hafter
      refine (simulates_list hinner hrounds .closeBracket .inArray arena rest after hafter).bind ?_
      intro elements rest last hlast hsize
      exact .push hlast (Nat.le_succ_of_le hsize) _
    | _ => exact .refuse hnext rfl rfl

theorem follows_suffixes {rounds : Nat} {room : List Token} {base : Ast}
    (h : parser.At stream limit depth base.arena tokens) (hrounds : tokens.length < rounds)
    (hroom : tokens.length ≤ room.length) :
    Follows stream limit depth rooted (tokens.length + 1)
      (Expr.buildSuffixes builder room base tokens) (suffixes inner rounds base.root parser) := by
  induction rounds generalizing room tokens parser base with
  | zero => omega
  | succ rounds ih =>
    refine .accept h ?_ ?_
    · rintro rest next rfl hnext
      obtain ⟨_, room, rfl⟩ := List.exists_cons_of_length_pos (Nat.zero_lt_of_lt hroom)
      simp only [List.length_cons] at hrounds hroom ⊢
      refine (hinner base.arena rest next hnext).bind ?_
      intro position rest after hafter hsize
      refine .demand hafter ?_
      intro rest last hlast hsize'
      refine (yields_push hlast (.index base.root position.root)).bind ?_
      intro final hfinal
      exact (ih hfinal (by omega) (by omega)).mono (by omega)
    · intro hbracket next hnext
      have hstop : Expr.buildSuffixes builder room base tokens = .ok (base, tokens) := by
        unfold Expr.buildSuffixes
        split
        · simp at hbracket
        · rfl
      rw [hstop]
      exact .done hnext (Nat.le_refl _)

theorem simulates_indexed (hrounds : stream.size ≤ rounds) :
    Simulates stream limit depth rooted (Expr.buildIndexed builder) (indexed rounds inner) := by
  intro arena tokens parser h
  refine (simulates_atom hinner hrounds arena tokens parser h).bind ?_
  intro base rest after hafter hsize
  have hlt := hafter.position_eq
  exact (follows_suffixes hinner hafter (by omega) (Nat.le_refl _)).mono hsize

end Expressions

/-! ## Binary layers -/

section Layers

variable {operand : Machine Nat} {builder : Builder Ast}
  (hoperand : Simulates stream limit depth rooted builder operand)

include hoperand

theorem follows_operations (level : Level) {rounds : Nat} {room : List Token} {left : Ast}
    (h : parser.At stream limit depth left.arena tokens) (hrounds : tokens.length < rounds)
    (hroom : tokens.length ≤ room.length) :
    Follows stream limit depth rooted (tokens.length + 1)
      (Expr.buildOperations level builder room left tokens)
      (operations level operand rounds left.root parser) := by
  induction rounds generalizing room tokens parser left with
  | zero => omega
  | succ rounds ih =>
    obtain ⟨slot, htoken, -, hpeek⟩ := yields_peek h
    refine hpeek.bind ?_
    intro next hnext
    rw [htoken]
    rcases tokens with _ | ⟨token, rest⟩
    · cases room <;> exact .done hnext (Nat.le_refl _)
    obtain ⟨_, room, rfl⟩ := List.exists_cons_of_length_pos (Nat.zero_lt_of_lt hroom)
    simp only [List.length_cons] at hrounds hroom ⊢
    unfold Expr.buildOperations
    rw [List.head?_cons, Option.bind_some, ← BinaryOp.spelling_ofToken?]
    cases BinaryOp.ofToken? level token with
    | none => exact .done hnext (Nat.le_refl _)
    | some op =>
      refine (passes_advance hnext).bind ?_
      intro _ after hafter
      refine (hoperand left.arena rest after hafter).bind ?_
      intro right rest last hlast hsize
      refine (yields_push hlast (.binary left.root op.spelling right.root)).bind ?_
      intro final hfinal
      exact (ih hfinal (by omega) (by omega)).mono (by omega)

theorem simulates_layer (hrounds : stream.size ≤ rounds) (level : Level) :
    Simulates stream limit depth rooted (Expr.buildLayer level builder)
      (layer rounds level operand) := by
  intro arena tokens parser h
  refine (hoperand arena tokens parser h).bind ?_
  intro left rest after hafter hsize
  have hlt := hafter.position_eq
  exact (follows_operations hoperand level hafter (by omega) (Nat.le_refl _)).mono hsize

end Layers

theorem simulates_comparison {inner : Machine Nat} {builder : Builder Ast}
    (hinner : Simulates stream limit depth rooted builder inner) (hrounds : stream.size ≤ rounds) :
    Simulates stream limit depth rooted (Expr.buildComparison builder)
      (comparison rounds inner) := by
  have hindexed := simulates_indexed hinner hrounds
  have hproduct := simulates_layer hindexed hrounds .product
  have hsum := simulates_layer hproduct hrounds .sum
  exact simulates_layer hsum hrounds .comparison

theorem simulates_disjunction {negation : Machine Nat} {builder : Builder Ast}
    (hnegation : Simulates stream limit depth rooted builder negation)
    (hrounds : stream.size ≤ rounds) :
    Simulates stream limit depth rooted (Expr.buildDisjunction builder)
      (disjunction rounds negation) := by
  have hconjunction := simulates_layer hnegation hrounds .conjunction
  exact simulates_layer hconjunction hrounds .disjunction

/-! ## Nesting -/

theorem simulates_prefixed {deeper comparison : Machine Nat} {builder builder' : Builder Ast}
    (hdeeper : Simulates stream limit depth rooted builder (nested deeper))
    (hcomparison : Simulates stream limit depth rooted builder' comparison) :
    Simulates stream limit depth rooted (Expr.buildPrefixed builder builder')
      (prefixed deeper comparison) := by
  intro arena tokens parser h
  refine .accept h ?_ ?_
  · rintro rest next rfl hnext
    refine (hdeeper arena rest next hnext).bind ?_
    intro operand rest' after hafter hsize
    exact .push hafter (Nat.le_succ_of_le hsize) _
  · intro hnot next hnext
    have hbuilt : Expr.buildPrefixed builder builder' arena tokens = builder' arena tokens := by
      unfold Expr.buildPrefixed
      split
      · simp at hnot
      · rfl
    rw [hbuilt]
    exact hcomparison arena tokens next hnext

/-- The operand of a `not`, which takes one level of the budget. -/
def buildDeeper : (budget : Nat) → Builder Ast
  | 0 => fun _ => Expr.refuseDepth
  | budget + 1 => Expr.buildNegation budget

theorem buildNegation_eq (budget : Nat) :
    Expr.buildNegation budget
      = Expr.buildPrefixed (buildDeeper budget) (Expr.buildComparison (Expr.build budget)) := by
  cases budget <;> rfl

/-- There are levels to spare as long as there are more of them than may still be opened. -/
theorem simulates_negation (hlimit : limit < UInt64.size) (hrounds : stream.size ≤ rounds)
    {levels : Nat} (hlevels : limit < depth + levels) :
    Simulates stream limit depth rooted (Expr.buildNegation (limit - depth))
      (negation rounds levels) := by
  induction levels generalizing depth with
  | zero =>
    intro arena tokens parser h
    have := h.depth_le
    omega
  | succ levels ih =>
    have hnegation : Simulates stream limit (depth + 1) rooted
        (Expr.buildNegation (limit - (depth + 1))) (negation rounds levels) := ih (by omega)
    have hdeeper : Simulates stream limit depth rooted (buildDeeper (limit - depth))
        (nested (negation rounds levels)) := .nested rfl (fun _ => rfl) hlimit fun _ => hnegation
    have hinner : Simulates stream limit depth rooted (Expr.build (limit - depth))
        (nested (disjunction rounds (negation rounds levels))) :=
      .nested rfl (fun _ => rfl) hlimit fun _ => simulates_disjunction hnegation hrounds
    rw [buildNegation_eq]
    exact simulates_prefixed hdeeper (simulates_comparison hinner hrounds)

theorem simulates_expression (hlimit : limit < UInt64.size) (hrounds : stream.size ≤ rounds)
    {levels : Nat} (hlevels : limit ≤ depth + levels) :
    Simulates stream limit depth rooted (Expr.build (limit - depth))
      (expression rounds levels) := by
  refine .nested rfl (fun _ => rfl) hlimit ?_
  intro hdepth
  exact simulates_disjunction (simulates_negation hlimit hrounds (by omega)) hrounds

/-! ## Statements -/

/-- A call or an assignment. -/
def buildCallOrAssign (expr : Builder Ast) : Builder Ast
  | arena, .name name :: .symbol .openParen :: rest => Stmt.buildCall expr name arena rest
  | arena, tokens => Stmt.buildAssign expr arena tokens

theorem buildForm_eq_callOrAssign {expr inner : Builder Ast}
    (hprint : tokens.head? ≠ some (.keyword .print))
    (hblock : tokens.head? ≠ some (.symbol .openBrace))
    (hcond : tokens.head? ≠ some (.keyword .cond)) (hloop : tokens.head? ≠ some (.keyword .loop))
    (hproc : tokens.head? ≠ some (.keyword .proc)) :
    Stmt.buildForm expr inner arena tokens
      = buildCallOrAssign expr arena tokens := by
  unfold Stmt.buildForm
  split
  · exact absurd rfl hprint
  · exact absurd rfl hblock
  · exact absurd rfl hcond
  · exact absurd rfl hloop
  · exact absurd rfl hproc
  · rfl
  · next hcall =>
    unfold buildCallOrAssign
    split
    · exact absurd rfl (hcall _ _)
    · rfl

theorem follows_body {inner : Machine Nat} {builder : Builder Ast}
    (hinner : Simulates stream limit depth rooted builder inner)
    {rounds : Nat} {room : List Token} (h : parser.At stream limit depth arena tokens)
    (hrounds : tokens.length < rounds) (hroom : tokens.length ≤ room.length) :
    Follows stream limit depth id tokens.length (Stmt.buildBlock builder room arena tokens)
      (body inner rounds parser) := by
  induction rounds generalizing room tokens parser arena with
  | zero => omega
  | succ rounds ih =>
    refine .check h ?_ ?_
    · intro hclose next hnext
      obtain ⟨rest, rfl⟩ := List.head?_eq_some_iff.mp hclose
      obtain ⟨_, room, rfl⟩ := List.exists_cons_of_length_pos (Nat.zero_lt_of_lt hroom)
      refine (passes_advance hnext).bind ?_
      intro _ after hafter
      exact .done hafter (by simp)
    · intro hclose next hnext
      refine (yields_isAtEnd hnext).bind ?_
      intro after hafter
      rcases tokens with _ | ⟨token, rest⟩
      · cases room <;> exact .refuse hafter rfl rfl
      obtain ⟨_, room, rfl⟩ := List.exists_cons_of_length_pos (Nat.zero_lt_of_lt hroom)
      simp only [List.length_cons] at hrounds hroom ⊢
      have hne : token = .symbol .closeBrace → False := fun heq => hclose (congrArg some heq)
      rw [Stmt.buildBlock.eq_2 _ _ _ _ _ _ hne]
      refine (hinner arena _ after hafter).bind ?_
      intro first rest' last hlast hsize
      rw [List.length_cons] at hsize
      refine (ih hlast (by omega) (by omega)).bind ?_
      intro more rest'' final hfinal hsize'
      exact .done hfinal (by omega)

theorem simulates_block {inner : Machine Nat} {exprBuilder builder : Builder Ast}
    (hinner : Simulates stream limit depth rooted builder inner) (hrounds : stream.size ≤ rounds) :
    Simulates stream limit depth rooted
      (fun arena tokens =>
        Stmt.buildForm exprBuilder builder arena (.symbol .openBrace :: tokens))
      (block rounds inner) := by
  intro arena tokens parser h
  have hlt := h.position_eq
  refine (follows_body hinner h (by omega) (Nat.le_refl _)).bind ?_
  intro stmts rest after hafter hsize
  exact .push hafter hsize _

section Forms

variable {expr inner : Machine Nat} {exprBuilder builder : Builder Ast}
  (hexpr : Simulates stream limit depth rooted exprBuilder expr)
  (hinner : Simulates stream limit depth rooted builder inner)

include hexpr

theorem simulates_print :
    Simulates stream limit depth rooted
      (fun arena tokens => Stmt.buildForm exprBuilder builder arena (.keyword .print :: tokens))
      (print expr) := by
  intro arena tokens parser h
  refine (hexpr arena tokens parser h).bind ?_
  intro value rest after hafter hvalue
  refine .demand hafter ?_
  intro rest last hlast hsemicolon
  exact .push hlast (by omega) _

theorem simulates_call (hrounds : stream.size ≤ rounds) (name : String) :
    Simulates stream limit depth rooted
      (fun arena tokens => do
        let rest ← expectAt .openParen .afterProcedureName tokens.tail
        Stmt.buildCall exprBuilder name arena rest)
      (call rounds expr name) := by
  intro arena tokens parser h
  refine (passes_advance h).bind ?_
  intro _ next hnext
  refine .demand hnext ?_
  intro rest after hafter hopen
  refine (simulates_list hexpr hrounds .closeParen .afterArguments arena rest after hafter).bind ?_
  intro arguments rest last hlast harguments
  refine .demand hlast ?_
  intro rest final hfinal hsemicolon
  rw [List.length_tail] at hopen
  exact .push hfinal (by omega) _

theorem simulates_assign :
    Simulates stream limit depth rooted (Stmt.buildAssign exprBuilder) (assign expr) := by
  intro arena tokens parser h
  refine (hexpr arena tokens parser h).bind ?_
  intro target rest next hnext htarget
  refine .demand hnext ?_
  intro rest after hafter hequals
  refine (hexpr _ rest after hafter).bind ?_
  intro value rest last hlast hvalue
  refine .demand hlast ?_
  intro rest final hfinal hsemicolon
  exact .push hfinal (by omega) _

theorem simulates_callOrAssign (hrounds : stream.size ≤ rounds) :
    Simulates stream limit depth rooted (buildCallOrAssign exprBuilder)
      (callOrAssign rounds expr) := by
  intro arena tokens parser h
  obtain ⟨slot, htoken, -, hpeek⟩ := yields_peek h
  refine hpeek.bind ?_
  intro next hnext
  rw [htoken]
  rcases tokens with _ | ⟨token, rest⟩
  · exact simulates_assign hexpr arena [] next hnext
  cases token with
  | name name =>
    obtain ⟨ahead, hahead, hpeekAhead⟩ := yields_peekAhead hnext
    refine hpeekAhead.bind ?_
    intro after hafter
    rw [Option.bind_some, hahead]
    by_cases hparen : rest.head? = some (.symbol .openParen)
    · rw [if_pos hparen]
      obtain ⟨more, rfl⟩ := List.head?_eq_some_iff.mp hparen
      exact simulates_call hexpr hrounds name arena _ after hafter
    · rw [if_neg hparen]
      have hbuilt : buildCallOrAssign exprBuilder arena (.name name :: rest)
          = Stmt.buildAssign exprBuilder arena (.name name :: rest) := by
        unfold buildCallOrAssign
        split
        · next heq =>
          obtain ⟨-, rfl⟩ := List.cons.inj heq
          exact absurd rfl hparen
        · rfl
      rw [hbuilt]
      exact simulates_assign hexpr arena _ after hafter
  | _ => exact simulates_assign hexpr arena _ next hnext

include hinner

theorem simulates_guarded (word : Keyword) :
    Simulates stream limit depth (fun read : Nat × Ast => ((read.1, read.2.root), read.2.arena))
      (Stmt.buildGuarded exprBuilder builder word) (guarded expr inner word) := by
  intro arena tokens parser h
  refine .demand h ?_
  intro rest next hnext hopen
  refine (hexpr arena rest next hnext).bind ?_
  intro condition rest after hafter hcondition
  refine .demand hafter ?_
  intro rest last hlast hclose
  refine (hinner _ rest last hlast).bind ?_
  intro governed rest final hfinal hgoverned
  exact .done hfinal (by omega)

theorem simulates_proc (hrounds : stream.size ≤ rounds) :
    Simulates stream limit depth rooted (Stmt.buildProc exprBuilder builder)
      (proc rounds expr inner) := by
  intro arena tokens parser h
  by_cases hname : ∃ name rest, tokens = .name name :: rest
  · obtain ⟨name, rest, rfl⟩ := hname
    refine (yields_demandName h).bind ?_
    intro next hnext
    refine .demand hnext ?_
    intro rest after hafter hopen
    refine (simulates_list hexpr hrounds _ _ arena rest after hafter).bind ?_
    intro parameters rest last hlast hparameters
    refine (hinner _ rest last hlast).bind ?_
    intro governed rest final hfinal hgoverned
    exact .push hfinal (by rw [List.length_cons]; omega) _
  · have hbuilt : Stmt.buildProc exprBuilder builder arena tokens
        = .error (.unexpected (.name (.afterWord .proc)) tokens) := by
      unfold Stmt.buildProc
      split
      · exact absurd ⟨_, _, rfl⟩ hname
      · rfl
    rw [hbuilt]
    have hrefused : Follows stream limit depth (fun name : String => (name, arena)) 0
        (.error (.unexpected (.name (.afterWord .proc)) tokens))
        (demandName (.afterWord .proc) parser) :=
      .demandName h fun name rest heq => hname ⟨name, rest, heq⟩
    exact hrefused.error_bind

theorem simulates_form (hrounds : stream.size ≤ rounds) :
    Simulates stream limit depth rooted (Stmt.buildForm exprBuilder builder)
      (form rounds expr inner) := by
  intro arena tokens parser h
  refine .accept h ?_ ?_
  · rintro rest next rfl hnext
    exact (simulates_print hexpr arena rest next hnext).mono (Nat.le_succ _)
  intro hprint next hnext
  refine .accept hnext ?_ ?_
  · rintro rest next rfl hnext
    exact (simulates_block hinner hrounds arena rest next hnext).mono (Nat.le_succ _)
  intro hblock next hnext
  refine .accept hnext ?_ ?_
  · rintro rest next rfl hnext
    refine (simulates_guarded hexpr hinner .cond arena rest next hnext).bind ?_
    intro parts rest after hafter hsize
    exact .push hafter (Nat.le_succ_of_le hsize) _
  intro hcond next hnext
  refine .accept hnext ?_ ?_
  · rintro rest next rfl hnext
    refine (simulates_guarded hexpr hinner .loop arena rest next hnext).bind ?_
    intro parts rest after hafter hsize
    exact .push hafter (Nat.le_succ_of_le hsize) _
  intro hloop next hnext
  refine .accept hnext ?_ ?_
  · rintro rest next rfl hnext
    exact (simulates_proc hexpr hinner hrounds arena rest next hnext).mono (Nat.le_succ _)
  intro hproc next hnext
  rw [buildForm_eq_callOrAssign hprint hblock hcond hloop hproc]
  exact simulates_callOrAssign hexpr hrounds arena tokens next hnext

end Forms

theorem simulates_statement (hlimit : limit < UInt64.size) (hrounds : stream.size ≤ rounds)
    {levels : Nat} (hlevels : limit < depth + levels) :
    Simulates stream limit depth rooted (Stmt.build (limit - depth))
      (statement rounds levels) := by
  induction levels generalizing depth with
  | zero =>
    intro arena tokens parser h
    have := h.depth_le
    omega
  | succ levels ih =>
    have hexpr : Simulates stream limit (depth + 1) rooted (Expr.build (limit - (depth + 1)))
        (expression rounds levels) := simulates_expression hlimit hrounds (by omega)
    have hstmt : Simulates stream limit (depth + 1) rooted (Stmt.build (limit - (depth + 1)))
        (statement rounds levels) := ih (by omega)
    exact .nested rfl (fun _ => rfl) hlimit fun _ => simulates_form hexpr hstmt hrounds

/-! ## All routines -/

section Routines

variable {levels : Nat} (hlimit : limit < UInt64.size) (hrounds : stream.size ≤ rounds)
  (hlevels : limit < levels)

include hlimit hrounds hlevels

/-- Every layer of expressions is read without going wrong, at whatever depth. -/
theorem Routine.safe_ofLayer (layer : Layer) :
    Safe stream limit (Routine.ofLayer rounds levels layer) := by
  have hexpr (depth : Nat) : Simulates stream limit depth rooted (Expr.build (limit - depth))
      (expression rounds levels) := simulates_expression hlimit hrounds (by omega)
  have hnegation (depth : Nat) : Simulates stream limit depth rooted
      (Expr.buildNegation (limit - depth)) (negation rounds levels) :=
    simulates_negation hlimit hrounds (by omega)
  have hdisjunction (depth : Nat) := simulates_disjunction (hnegation depth) hrounds
  have hconjunction (depth : Nat) := simulates_layer (hnegation depth) hrounds .conjunction
  have hindexed (depth : Nat) := simulates_indexed (hexpr depth) hrounds
  have hproduct (depth : Nat) := simulates_layer (hindexed depth) hrounds .product
  have hsum (depth : Nat) := simulates_layer (hproduct depth) hrounds .sum
  have hcomparison (depth : Nat) := simulates_comparison (hexpr depth) hrounds
  cases layer with
  | exp => exact .of_simulates hexpr
  | negation => exact .of_simulates hnegation
  | indexed => exact .of_simulates hindexed
  | atom => exact .of_simulates fun depth => simulates_atom (hexpr depth) hrounds
  | operators level =>
    cases level with
    | disjunction => exact .of_simulates hdisjunction
    | conjunction => exact .of_simulates hconjunction
    | comparison => exact .of_simulates hcomparison
    | sum => exact .of_simulates hsum
    | product => exact .of_simulates hproduct

/-- No routine goes wrong, wherever in a text and at whatever depth it begins. -/
theorem Routine.safe_run (routine : Routine) :
    Safe stream limit (routine.run rounds levels) := by
  have hexpr (depth : Nat) : Simulates stream limit depth rooted (Expr.build (limit - depth))
      (expression rounds levels) := simulates_expression hlimit hrounds (by omega)
  have hstmt (depth : Nat) : Simulates stream limit depth rooted (Stmt.build (limit - depth))
      (Descent.statement rounds levels) := simulates_statement hlimit hrounds (by omega)
  cases routine with
  | statement => exact .of_simulates hstmt
  | form => exact .of_simulates fun depth => simulates_form (hexpr depth) (hstmt depth) hrounds
  | print =>
    have hprint (depth : Nat) : Simulates stream limit depth rooted
        (fun arena tokens => Stmt.buildForm (Expr.build (limit - depth)) (Stmt.build 0) arena
          (.keyword .print :: tokens))
        (Descent.print (expression rounds levels)) := simulates_print (hexpr depth)
    exact .of_simulates hprint
  | block =>
    have hblock (depth : Nat) : Simulates stream limit depth rooted
        (fun arena tokens => Stmt.buildForm (Expr.build 0) (Stmt.build (limit - depth)) arena
          (.symbol .openBrace :: tokens))
        (Descent.block rounds (Descent.statement rounds levels)) :=
      simulates_block (hstmt depth) hrounds
    exact .of_simulates hblock
  | guarded word =>
    exact .of_simulates fun depth => simulates_guarded (hexpr depth) (hstmt depth) word
  | proc => exact .of_simulates fun depth => simulates_proc (hexpr depth) (hstmt depth) hrounds
  | call name => exact .of_simulates fun depth => simulates_call (hexpr depth) hrounds name
  | assign => exact .of_simulates fun depth => simulates_assign (hexpr depth)
  | callOrAssign => exact .of_simulates fun depth => simulates_callOrAssign (hexpr depth) hrounds
  | list close place =>
    exact .of_simulates fun depth => simulates_list (hexpr depth) hrounds close place
  | expr layer => exact Routine.safe_ofLayer hlimit hrounds hlevels layer

end Routines

/-! ## Scripts -/

theorem yields_finish {ast : Ast} (h : parser.At stream limit depth ast.arena tokens) :
    Yields stream limit depth ast.arena tokens ast (finish ast.root parser) := by
  refine ⟨parser, ?_, h⟩
  rw [finish, h.arena_eq, Arena.withRoot?, dif_pos ast.root_lt]

/-- The program of tokens that are all of a text, with no tokens left. -/
theorem ofTokens_map_eq (limit : Nat) (tokens : List Token) :
    ((Ast.ofTokens limit tokens).map fun ast => (ast, ([] : List Token)))
      = (Stmt.build limit .empty tokens >>= fun read =>
        match read.2 with
        | [] => .ok (read.1, [])
        | _ :: _ => .error (.unexpected .endOfInput read.2)) := by
  unfold Ast.ofTokens
  cases Stmt.build limit .empty tokens with
  | error refusal => rfl
  | ok read =>
    obtain ⟨ast, rest⟩ := read
    cases rest <;> rfl

/-- The machine comes to the program of a text, or it refuses the text as the readers do. -/
theorem program_eq (hlimit : limit < UInt64.size) (hrounds : stream.size ≤ rounds) {levels : Nat}
    (hlevels : limit < levels) :
    ∃ arena tokens parser, program rounds levels (.start limit stream)
        = ((Ast.ofStream limit stream).mapError Halt.refused, parser)
      ∧ parser.At stream limit 0 arena tokens := by
  have hfollows : Follows stream limit 0 (fun ast : Ast => (ast, ast.arena)) stream.size
      ((Ast.ofTokens limit stream.tokens).map fun ast => (ast, []))
      (program rounds levels (.start limit stream)) := by
    have hstmt : Simulates stream limit 0 rooted (Stmt.build (limit - 0))
        (statement rounds levels) := simulates_statement hlimit hrounds (by omega)
    rw [ofTokens_map_eq]
    refine (hstmt _ _ _ (Parser.at_start limit stream)).bind ?_
    intro ast rest next hnext hsize
    refine (yields_isAtEnd hnext).bind ?_
    intro after hafter
    cases rest with
    | nil => exact ⟨Nat.succ_pos _, yields_finish hafter⟩
    | cons token rest => exact .refuse hafter rfl rfl
  rw [Ast.ofStream]
  cases hbuilt : Ast.ofTokens limit stream.tokens with
  | error refusal =>
    rw [hbuilt] at hfollows
    obtain ⟨parser, arena, hrun, hat⟩ := hfollows
    exact ⟨arena, _, parser, hrun, hat⟩
  | ok ast =>
    rw [hbuilt] at hfollows
    obtain ⟨-, parser, hrun, hat⟩ := hfollows
    exact ⟨ast.arena, _, parser, hrun, hat⟩

end ScriptFacts.Descent
