import ScriptFacts.Proofs.Fact.Rebuild
import ScriptFacts.Proofs.Program.ExactGrammar

/-!
# Facts decide programs

Two scripts have the same facts exactly if they are the same stored program, node for node. The
facts can be read back into the term below the root, the term tells the statement, and a statement
is laid out in one way. Which facts there are is enough for this; their order says nothing more.

* `Expr.term_injective`, `Stmt.term_injective`: trees with one term are one tree.
* `Stmt.exists_readBack`: whatever has the facts of a program gives the term of its statement.
* `Ast.eq_iff_facts_eq`: equal facts, equal programs.
-/
namespace ScriptFacts

/-! ## Terms tell trees apart -/

theorem BinaryOp.spelling_injective {op other : BinaryOp} (h : op.spelling = other.spelling) :
    op = other := by
  have hall : ∀ a ∈ all, ∀ b ∈ all, a.spelling = b.spelling → a = b := by decide
  exact hall op (mem_all op) other (mem_all other) h

mutual

/-- The kind of the node tells the form of the expression, and its fields tell the parts. -/
theorem Expr.term_injective : (expr other : Expr) → expr.term = other.term → expr = other
  | .var name, other, h => by
    cases other <;> simp_all [Expr.term]
  | .int value, other, h => by
    cases other with
    | int value' =>
      simp only [Expr.term, Term.node.injEq, List.cons.injEq, Term.bare.injEq] at h
      rw [Legend.repr_injective h.2.1]
    | _ => simp [Expr.term] at h
  | .string text, other, h => by
    cases other <;> simp_all [Expr.term]
  | .array elements, other, h => by
    cases other with
    | array elements' =>
      simp only [Expr.term, Term.node.injEq, List.cons.injEq, Term.list.injEq] at h
      rw [termAll_injective elements elements' h.2.1]
    | _ => simp [Expr.term] at h
  | .index base position, other, h => by
    cases other with
    | index base' position' =>
      simp only [Expr.term, Term.node.injEq, List.cons.injEq] at h
      rw [base.term_injective base' h.2.1, position.term_injective position' h.2.2.1]
    | _ => simp [Expr.term] at h
  | .binary left op right, other, h => by
    cases other with
    | binary left' op' right' =>
      simp only [Expr.term, Term.node.injEq, List.cons.injEq, Term.quoted.injEq] at h
      rw [left.term_injective left' h.2.1, BinaryOp.spelling_injective h.2.2.1,
        right.term_injective right' h.2.2.2.1]
    | _ => simp [Expr.term] at h
  | .not operand, other, h => by
    cases other with
    | not operand' =>
      simp only [Expr.term, Term.node.injEq, List.cons.injEq] at h
      rw [operand.term_injective operand' h.2.2.1]
    | _ => simp [Expr.term] at h

theorem Expr.termAll_injective :
    (exprs others : List Expr) → Expr.termAll exprs = Expr.termAll others → exprs = others
  | [], others, h => by
    cases others with
    | nil => rfl
    | cons => simp [Expr.termAll] at h
  | expr :: exprs, others, h => by
    cases others with
    | nil => simp [Expr.termAll] at h
    | cons other others =>
      simp only [Expr.termAll, List.cons.injEq] at h
      rw [expr.term_injective other h.1, termAll_injective exprs others h.2]

end

mutual

/-- The same for statements. -/
theorem Stmt.term_injective : (stmt other : Stmt) → stmt.term = other.term → stmt = other
  | .print value, other, h => by
    cases other with
    | print value' =>
      simp only [Stmt.term, Term.node.injEq, List.cons.injEq] at h
      rw [value.term_injective value' h.2.1]
    | _ => simp [Stmt.term] at h
  | .assign target value, other, h => by
    cases other with
    | assign target' value' =>
      simp only [Stmt.term, Term.node.injEq, List.cons.injEq] at h
      rw [target.term_injective target' h.2.1, value.term_injective value' h.2.2.1]
    | _ => simp [Stmt.term] at h
  | .block body, other, h => by
    cases other with
    | block body' =>
      simp only [Stmt.term, Term.node.injEq, List.cons.injEq, Term.list.injEq] at h
      rw [termAll_injective body body' h.2.1]
    | _ => simp [Stmt.term] at h
  | .cond condition body, other, h => by
    cases other with
    | cond condition' body' =>
      simp only [Stmt.term, Term.node.injEq, List.cons.injEq] at h
      rw [condition.term_injective condition' h.2.1, body.term_injective body' h.2.2.1]
    | _ => simp [Stmt.term] at h
  | .loop condition body, other, h => by
    cases other with
    | loop condition' body' =>
      simp only [Stmt.term, Term.node.injEq, List.cons.injEq] at h
      rw [condition.term_injective condition' h.2.1, body.term_injective body' h.2.2.1]
    | _ => simp [Stmt.term] at h
  | .proc name parameters body, other, h => by
    cases other with
    | proc name' parameters' body' =>
      simp only [Stmt.term, Term.node.injEq, List.cons.injEq, Term.quoted.injEq,
        Term.list.injEq] at h
      rw [h.2.1, Expr.termAll_injective parameters parameters' h.2.2.1,
        body.term_injective body' h.2.2.2.1]
    | _ => simp [Stmt.term] at h
  | .call name arguments, other, h => by
    cases other with
    | call name' arguments' =>
      simp only [Stmt.term, Term.node.injEq, List.cons.injEq, Term.quoted.injEq,
        Term.list.injEq] at h
      rw [h.2.1, Expr.termAll_injective arguments arguments' h.2.2.1]
    | _ => simp [Stmt.term] at h

theorem Stmt.termAll_injective :
    (stmts others : List Stmt) → Stmt.termAll stmts = Stmt.termAll others → stmts = others
  | [], others, h => by
    cases others with
    | nil => rfl
    | cons => simp [Stmt.termAll] at h
  | stmt :: stmts, others, h => by
    cases others with
    | nil => simp [Stmt.termAll] at h
    | cons other others =>
      simp only [Stmt.termAll, List.cons.injEq] at h
      rw [stmt.term_injective other h.1, termAll_injective stmts others h.2]

end

/-! ## Facts tell terms apart -/

/-- Facts are read back in the order in which they come. -/
def Choice.first : Choice := fun _ candidates h => ⟨candidates.head h, List.head_mem h⟩

/-- The program of a statement has facts, and any list of facts with the same members is read back
into the term of the statement. -/
theorem Stmt.exists_readBack (stmt : Stmt) :
    ∃ set enough, stmt.toAst.facts? = some set ∧
      ∀ facts : List Fact, (∀ fact, fact ∈ facts ↔ fact ∈ set.toList) → ∀ fuel, enough ≤ fuel →
        rebuildNode facts .first fuel [] "1" = some stmt.term := by
  obtain ⟨final, hexport⟩ := Ast.exists_export stmt.closed_toAst stmt.acyclic_toAst
  obtain ⟨legend, -, hroot, hholds, htold⟩ := Ast.exists_legend hexport
  refine ⟨final.facts, stmt.toAst.arena.weight stmt.toAst.arena.size stmt.toAst.root,
    by rw [Ast.facts?, hexport]; rfl, fun facts hfacts fuel hfuel => ?_⟩
  have htoldBy : legend.ToldBy stmt.toAst.arena facts := by
    refine ⟨fun fact hmem => hholds fact ((hfacts fact).mp hmem), fun index hlt => ?_⟩
    obtain ⟨fact, hmem, hsubject⟩ := htold index hlt
    exact ⟨fact, (hfacts fact).mpr hmem, hsubject⟩
  exact htoldBy.rebuildNode_eq_some .first [] stmt.term?_toAst ⟨0, hroot, by decide⟩ hfuel

/-- Statements whose programs have the same facts are equal. -/
theorem Stmt.eq_of_mem_facts_iff {stmt other : Stmt} {set otherSet : FactSet}
    (hset : stmt.toAst.facts? = some set) (hother : other.toAst.facts? = some otherSet)
    (h : ∀ fact, fact ∈ set.toList ↔ fact ∈ otherSet.toList) : stmt = other := by
  obtain ⟨_, enough, hfacts, hread⟩ := stmt.exists_readBack
  obtain ⟨_, enough', hfacts', hread'⟩ := other.exists_readBack
  obtain rfl := Option.some.inj (hfacts.symm.trans hset)
  obtain rfl := Option.some.inj (hfacts'.symm.trans hother)
  have hleft := hread _ (fun _ => Iff.rfl) (enough + enough') (Nat.le_add_right _ _)
  have hright := hread' _ h (enough + enough') (Nat.le_add_left _ _)
  exact stmt.term_injective other (Option.some.inj (hleft.symm.trans hright))

/-! ## Whole programs -/

theorem Ast.eq_of_arena_root {ast other : Ast} (harena : ast.arena = other.arena)
    (hroot : ast.root = other.root) : ast = other := by
  obtain ⟨arena, root, _⟩ := ast
  obtain ⟨_, _, _⟩ := other
  obtain rfl : arena = _ := harena
  obtain rfl : root = _ := hroot
  rfl

/-- The programs of two scripts have facts, and the programs are equal exactly if their facts are.
They are equal as soon as the same facts occur. -/
theorem Ast.eq_iff_facts_eq (text other : List Char) (ast ast' : Ast)
    (htext : (Stmt.ofText defaultLimit text).map Stmt.toAst = .ok ast)
    (hother : (Stmt.ofText defaultLimit other).map Stmt.toAst = .ok ast') :
    ∃ set set', ast.facts? = some set ∧ ast'.facts? = some set' ∧
      ((ast.arena = ast'.arena ∧ ast.root = ast'.root) ↔ set = set') ∧
      ((∀ fact, fact ∈ set.toList ↔ fact ∈ set'.toList) → set = set') := by
  obtain ⟨stmt, rfl⟩ := Stmt.exists_of_map_toAst htext
  obtain ⟨stmt', rfl⟩ := Stmt.exists_of_map_toAst hother
  obtain ⟨set, -, hset, -⟩ := stmt.exists_readBack
  obtain ⟨set', -, hset', -⟩ := stmt'.exists_readBack
  refine ⟨set, set', hset, hset', ⟨?_, ?_⟩, ?_⟩
  · rintro ⟨harena, hroot⟩
    rw [Ast.eq_of_arena_root harena hroot] at hset
    exact Option.some.inj (hset.symm.trans hset')
  · rintro rfl
    obtain rfl := Stmt.eq_of_mem_facts_iff hset hset' fun _ => Iff.rfl
    exact ⟨rfl, rfl⟩
  · intro h
    obtain rfl := Stmt.eq_of_mem_facts_iff hset hset' h
    exact Option.some.inj (hset.symm.trans hset')

/-- Parentheses, zeros in front and a comment change neither the program nor its facts; another
number changes both. -/
theorem Ast.eq_iff_facts_eq_zeros :
    ∃ seven eight : Ast, seven.arena ≠ eight.arena ∧
      (Stmt.ofText defaultLimit "print (007);".toList).map Stmt.toAst = .ok seven ∧
      (Stmt.ofText defaultLimit "print 7; # seven".toList).map Stmt.toAst = .ok seven ∧
      (Stmt.ofText defaultLimit "print 8;".toList).map Stmt.toAst = .ok eight ∧
      ∃ set set', seven.facts? = some set ∧ eight.facts? = some set' ∧ set ≠ set' := by
  have hzeros : TokenStream.ofText "print (007);".toList = .ok
      ⟨[⟨.keyword .print, ⟨1, 1⟩⟩, ⟨.symbol .openParen, ⟨1, 7⟩⟩, ⟨.int 7, ⟨1, 8⟩⟩,
        ⟨.symbol .closeParen, ⟨1, 11⟩⟩, ⟨.symbol .semicolon, ⟨1, 12⟩⟩], ⟨1, 13⟩⟩ :=
    TokenStream.ofText_of_toOption (by decide +kernel)
  have hcomment : TokenStream.ofText "print 7; # seven".toList = .ok
      ⟨[⟨.keyword .print, ⟨1, 1⟩⟩, ⟨.int 7, ⟨1, 7⟩⟩, ⟨.symbol .semicolon, ⟨1, 8⟩⟩], ⟨1, 17⟩⟩ :=
    TokenStream.ofText_of_toOption (by decide +kernel)
  have hlarger : TokenStream.ofText "print 8;".toList = .ok
      ⟨[⟨.keyword .print, ⟨1, 1⟩⟩, ⟨.int 8, ⟨1, 7⟩⟩, ⟨.symbol .semicolon, ⟨1, 8⟩⟩], ⟨1, 9⟩⟩ :=
    TokenStream.ofText_of_toOption (by decide +kernel)
  have hseven : (Stmt.ofText defaultLimit "print (007);".toList).map Stmt.toAst
      = .ok (Stmt.print (.int 7)).toAst := by
    rw [Stmt.ofText_of_stream hzeros]
    rfl
  have hother : (Stmt.ofText defaultLimit "print 8;".toList).map Stmt.toAst
      = .ok (Stmt.print (.int 8)).toAst := by
    rw [Stmt.ofText_of_stream hlarger]
    rfl
  have hdiffer : (Stmt.print (.int 7)).toAst.arena ≠ (Stmt.print (.int 8)).toAst.arena := by
    decide +kernel
  obtain ⟨set, set', hset, hset', hiff, -⟩ := Ast.eq_iff_facts_eq _ _ _ _ hseven hother
  refine ⟨_, _, hdiffer, hseven, ?_, hother, set, set', hset, hset', fun hsame => ?_⟩
  · rw [Stmt.ofText_of_stream hcomment]
    rfl
  · exact hdiffer (hiff.mpr hsame).1

end ScriptFacts
