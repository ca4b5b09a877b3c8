import ScriptFacts.Proofs.Fact.Exporter
import ScriptFacts.Proofs.Fact.Identifiers
import ScriptFacts.Proofs.Fact.Writing
import ScriptFacts.Proofs.Program.Descent
import ScriptFacts.Proofs.Token.Written

/-!
# From text to facts

What is exported and parsed by machines that can go wrong never does: from any text, the parsing
machine comes to a program or refuses the text, and the program of a text is written as a term,
exported and rendered. The rounds that are enough are known from the length of the text, because
every node and every list cell has a token of its own.

* `Stmt.Derives.entities_le`: the nodes and cells of a statement are fewer than twice its tokens.
* `TokenStream.length_tokens_le`: a text has no more tokens than characters.
* `Descent.never_goes_wrong`: the whole way from a text to its facts.
-/
namespace ScriptFacts

/-! ## Nodes and cells -/

/-- The number of nodes and of the cells of their sequences. -/
def Arena.entities (arena : Arena) : Nat :=
  arena.size + arena.cells

theorem Arena.entities_push (arena : Arena) (node : Node) :
    (arena.push node).2.entities = arena.entities + 1 + node.cells := by
  simp [entities, cells, push, size, totalWeight]
  omega

@[simp] theorem Node.cells_eq (node : Node) :
    node.cells = match node with
      | .array items | .block items | .proc _ items _ | .call _ items => items.length + 1
      | _ => 0 := by
  cases node <;> simp [cells, fields, Field.cells, totalWeight]

theorem Expr.length_layOutAll (exprs : List Expr) (arena : Arena) :
    (Expr.layOutAll exprs arena).1.length = exprs.length := by
  induction exprs generalizing arena with
  | nil => rfl
  | cons expr exprs ih => simp [Expr.layOutAll, ih]

theorem Stmt.length_layOutAll (stmts : List Stmt) (arena : Arena) :
    (Stmt.layOutAll stmts arena).1.length = stmts.length := by
  induction stmts generalizing arena with
  | nil => rfl
  | cons stmt stmts ih => simp [Stmt.layOutAll, ih]

mutual

/-- An expression has fewer nodes and cells than twice its tokens. -/
theorem Expr.Derives.entities_le {layer : Layer} {depth : Nat} {tokens : List Token} {expr : Expr}
    (h : Expr.Derives layer depth tokens expr) (arena : Arena) :
    (expr.layOut arena).2.entities < arena.entities + 2 * tokens.length := by
  match h with
  | .exp inner | .operand inner | .comparison inner | .atom inner =>
    exact Expr.Derives.entities_le inner arena
  | .parenthesized inner =>
    have hinner := Expr.Derives.entities_le inner arena
    simp
    omega
  | .not inner =>
    have hinner := Expr.Derives.entities_le inner arena
    simp [Expr.layOut, Arena.entities_push]
    omega
  | @Expr.Derives.binary _ _ _ left _ _ hleft hright =>
    have hleft := Expr.Derives.entities_le hleft arena
    have hright := Expr.Derives.entities_le hright (left.layOut arena).2
    simp [Expr.layOut, Arena.entities_push]
    omega
  | @Expr.Derives.index _ _ _ base _ hbase hposition =>
    have hbase := Expr.Derives.entities_le hbase arena
    have hposition := Expr.Derives.entities_le hposition (base.layOut arena).2
    simp [Expr.layOut, Arena.entities_push]
    omega
  | .int value | .string text | .var name => simp [Expr.layOut, Arena.entities_push]
  | .array inner =>
    have hinner := Expr.DerivesList.entities_le inner arena
    simp [Expr.layOut, Arena.entities_push, Expr.length_layOutAll]
    omega

/-- Expressions in a list have a cell each, and the commas between them have none. -/
theorem Expr.DerivesList.entities_le {depth : Nat} {tokens : List Token} {exprs : List Expr}
    (h : Expr.DerivesList depth tokens exprs) (arena : Arena) :
    (Expr.layOutAll exprs arena).2.entities + exprs.length
      ≤ arena.entities + 2 * tokens.length := by
  match h with
  | .empty => simp [Expr.layOutAll]
  | .some inner => exact Expr.DerivesItems.entities_le inner arena

theorem Expr.DerivesItems.entities_le {depth : Nat} {tokens : List Token} {exprs : List Expr}
    (h : Expr.DerivesItems depth tokens exprs) (arena : Arena) :
    (Expr.layOutAll exprs arena).2.entities + exprs.length
      ≤ arena.entities + 2 * tokens.length := by
  match h with
  | .one inner => exact Expr.Derives.entities_le inner arena
  | @Expr.DerivesItems.more _ _ _ first _ hfirst hrest =>
    have hfirst := Expr.Derives.entities_le hfirst arena
    have hrest := Expr.DerivesItems.entities_le hrest (first.layOut arena).2
    simp [Expr.layOutAll]
    omega

end

mutual

/-- A statement has fewer nodes and cells than twice its tokens. -/
theorem Stmt.Derives.entities_le {depth : Nat} {tokens : List Token} {stmt : Stmt}
    (h : Stmt.Derives depth tokens stmt) (arena : Arena) :
    (stmt.layOut arena).2.entities < arena.entities + 2 * tokens.length := by
  match h with
  | .print hvalue =>
    have hvalue := hvalue.entities_le arena
    simp [Stmt.layOut, Arena.entities_push]
    omega
  | @Stmt.Derives.assign _ _ _ target _ htarget hvalue =>
    have htarget := htarget.entities_le arena
    have hvalue := hvalue.entities_le (target.layOut arena).2
    simp [Stmt.layOut, Arena.entities_push]
    omega
  | .block hbody =>
    have hbody := Stmt.DerivesAll.entities_le hbody arena
    simp [Stmt.layOut, Arena.entities_push, Stmt.length_layOutAll]
    omega
  | @Stmt.Derives.cond _ _ _ condition _ hcondition hbody
  | @Stmt.Derives.loop _ _ _ condition _ hcondition hbody =>
    have hcondition := hcondition.entities_le arena
    have hbody := Stmt.Derives.entities_le hbody (condition.layOut arena).2
    simp [Stmt.layOut, Arena.entities_push]
    omega
  | @Stmt.Derives.proc _ _ _ parameters _ _ hparameters hbody =>
    have hparameters := hparameters.entities_le arena
    have hbody := Stmt.Derives.entities_le hbody (Expr.layOutAll parameters arena).2
    simp [Stmt.layOut, Arena.entities_push, Expr.length_layOutAll]
    omega
  | .call name harguments =>
    have harguments := harguments.entities_le arena
    simp [Stmt.layOut, Arena.entities_push, Expr.length_layOutAll]
    omega

theorem Stmt.DerivesAll.entities_le {depth : Nat} {tokens : List Token} {body : List Stmt}
    (h : Stmt.DerivesAll depth tokens body) (arena : Arena) :
    (Stmt.layOutAll body arena).2.entities + body.length
      ≤ arena.entities + 2 * tokens.length := by
  match h with
  | .nil => simp [Stmt.layOutAll]
  | @Stmt.DerivesAll.cons _ _ _ first _ hfirst hrest =>
    have hfirst := Stmt.Derives.entities_le hfirst arena
    have hrest := Stmt.DerivesAll.entities_le hrest (first.layOut arena).2
    simp [Stmt.layOutAll]
    omega

end

/-! ## Tokens -/

/-- Every lexeme takes at least one character. -/
theorem length_cut_le (text : List Char) : (cut text).1.length ≤ text.length := by
  fun_induction cut text with
  | case1 text gap h => exact Nat.zero_le _
  | case2 text gap c more h fault hread => exact Nat.zero_le _
  | case3 text gap c more h token n hread lexemes ending hcut ih =>
    have hrest := length_splitGap_le false text
    rw [h] at hrest
    rw [hcut] at ih
    simp at hrest ih ⊢
    omega

theorem TokenStream.length_tokens_le {text : List Char} {stream : TokenStream}
    (h : TokenStream.ofText text = .ok stream) : stream.tokens.length ≤ text.length := by
  obtain ⟨lexemes, gap, hcut, rfl⟩ := TokenStream.ofText_eq_ok_iff.mp h
  have hlength := length_cut_le text
  rw [hcut] at hlength
  simpa [TokenStream.tokens, TokenStream.tokens_place] using hlength

theorem TokenStream.size_le {text : List Char} {stream : TokenStream}
    (h : TokenStream.ofText text = .ok stream) : stream.size ≤ text.length + 1 := by
  have hlength := TokenStream.length_tokens_le h
  rw [stream.size_eq]
  omega

/-! ## From a text to its facts -/

/-- As many numbers are given out in the export of a statement as it has nodes and cells, and as
many facts are exported. -/
theorem Stmt.export_toAst (stmt : Stmt) :
    ∃ final, stmt.toAst.export? = some final
      ∧ final.facts.size = stmt.toAst.arena.entities
      ∧ final.numbering.issued = stmt.toAst.arena.entities := by
  obtain ⟨final, hexport⟩ := Ast.exists_export stmt.closed_toAst stmt.acyclic_toAst
  have hsize := Ast.size_facts hexport stmt.postorder?_toAst
  have hlength := (Ast.perm_subjects hexport stmt.postorder?_toAst).length_eq
  refine ⟨final, hexport, hsize, ?_⟩
  rw [← Arena.entities] at hsize
  simp [FactSet.toList] at hlength
  rw [← hlength]
  exact hsize

/-- The program of a text can be written and exported, and both the facts and the numbers given out
are fewer than twice the characters. -/
theorem Ast.exists_final_of_ofText {limit : Nat} {text : List Char} {ast : Ast}
    (h : Ast.ofText limit text = .ok ast) :
    (∃ shown, ast.render? ast.root = some shown)
      ∧ ∃ final, ast.export? = some final ∧ final.facts.size < 2 * text.length
        ∧ final.numbering.issued < 2 * text.length := by
  rw [Ast.ofText_eq] at h
  cases hread : Stmt.ofText limit text with
  | error error => simp [hread, Except.map] at h
  | ok stmt =>
    rw [hread] at h
    obtain rfl := Except.ok.inj h
    have hterm : stmt.toAst.arena.term? stmt.toAst.root = some stmt.term := stmt.term?_toAst
    obtain ⟨stream, hstream, hderives⟩ := Stmt.ofText_eq_ok_iff.mp hread
    obtain ⟨final, hexport, hfacts, hissued⟩ := stmt.export_toAst
    have hentities : stmt.toAst.arena.entities < 2 * text.length := by
      have hlength := TokenStream.length_tokens_le hstream
      have hbelow := hderives.entities_le .empty
      have hempty : Arena.entities .empty = 0 := rfl
      show (stmt.layOut .empty).2.entities < 2 * text.length
      omega
    refine ⟨⟨stmt.term.render, ?_⟩, final, hexport, by omega, by omega⟩
    rw [Ast.render?, hterm, Option.map_some]

/-- The machine for a text halts with the program of the text, or because it refuses the text. -/
theorem Descent.ofText_eq {limit : Nat} (hlimit : limit < UInt64.size) {text : List Char}
    {rounds levels : Nat} (hrounds : text.length < rounds) (hlevels : limit < levels) :
    Descent.ofText rounds levels limit text = (Ast.ofText limit text).mapError Halt.refused := by
  unfold Descent.ofText
  cases hstream : TokenStream.ofText text with
  | error error =>
    unfold Ast.ofText
    rw [hstream]
    rfl
  | ok stream =>
    have hsize : stream.size ≤ rounds := by
      have := TokenStream.size_le hstream
      omega
    obtain ⟨_, _, parser, hrun, -⟩ := Descent.program_eq hlimit hsize hlevels
    rw [Ast.ofText_of_stream hstream]
    show (Descent.program rounds levels (.start limit stream)).1 = _
    rw [hrun]

/-- Nothing goes wrong on the way from a text to its facts, if there are twice as many rounds as
characters and more levels than may be opened.

* The machine for the text comes to its program, or refuses the text.
* So does every routine, wherever in the text it begins: it passes a token or refuses, and leaves
  as many levels open as there were. It never looks beyond the end of the text.
* The program is written as a term and is exported. Numbers are given out to fewer than twice as
  many things as there are characters, and the facts are written wherever there is room for their
  text. -/
theorem Descent.never_goes_wrong (limit : Nat) (hlimit : limit < UInt64.size) (text : List Char)
    (rounds levels : Nat) (hrounds : 2 * text.length < rounds) (hlevels : limit < levels) :
    Descent.ofText rounds levels limit text = (Ast.ofText limit text).mapError Halt.refused
      ∧ (∀ stream, TokenStream.ofText text = .ok stream →
        (∀ routine : Routine, Machine.Safe stream limit (routine.run rounds levels))
        ∧ ∃ last : Parser, last.Sound stream limit ∧ last.depth = 0
          ∧ Descent.program rounds levels (.start limit stream)
            = ((Ast.ofText limit text).mapError Halt.refused, last))
      ∧ ∀ ast, Ast.ofText limit text = .ok ast →
        (∃ shown, ast.render? ast.root = some shown)
        ∧ ∃ final, ast.export? = some final ∧ ast.exportFacts rounds = .ok final.facts
          ∧ final.numbering.issued < 2 * text.length
          ∧ ∀ style sink, (final.facts.render style).utf8ByteSize ≤ sink.room →
            ∃ after, final.facts.write style sink = .ok after := by
  refine ⟨Descent.ofText_eq hlimit (by omega) hlevels, ?_, ?_⟩
  · intro stream hstream
    have hsize : stream.size ≤ rounds := by
      have := TokenStream.size_le hstream
      omega
    obtain ⟨_, _, last, hrun, hlast⟩ := Descent.program_eq hlimit hsize hlevels
    rw [← Ast.ofText_of_stream hstream] at hrun
    exact ⟨fun routine => routine.safe_run hlimit hsize hlevels,
      ⟨last, hlast.sound, hlast.depth_eq, hrun⟩⟩
  · intro ast hast
    obtain ⟨hshown, final, hexport, hsize, hissued⟩ := Ast.exists_final_of_ofText hast
    refine ⟨hshown, final, hexport, ?_, hissued, ?_⟩
    · exact Ast.exportFacts_of_export hexport (by omega)
    · intro style sink hroom
      exact ⟨_, by rw [FactSet.write_eq, Sink.putText_of_le hroom]⟩

/-- The call `f([x], not 1);` opens three levels and closes them again, and its five nodes and five
cells are numbered. -/
theorem Descent.never_goes_wrong_call :
    ∃ ast final stream last, Descent.ofText 29 4 3 "f([x], not 1);".toList = .ok ast
      ∧ TokenStream.ofText "f([x], not 1);".toList = .ok stream
      ∧ Descent.program 29 4 (.start 3 stream) = (.ok ast, last) ∧ last.depth = 0
      ∧ ast.export? = some final ∧ ast.exportFacts 29 = .ok final.facts
      ∧ final.numbering.issued < 28 := by
  have hstream : TokenStream.ofText "f([x], not 1);".toList = .ok
      ⟨[⟨.name "f", ⟨1, 1⟩⟩, ⟨.symbol .openParen, ⟨1, 2⟩⟩, ⟨.symbol .openBracket, ⟨1, 3⟩⟩,
        ⟨.name "x", ⟨1, 4⟩⟩, ⟨.symbol .closeBracket, ⟨1, 5⟩⟩, ⟨.symbol .comma, ⟨1, 6⟩⟩,
        ⟨.keyword .not, ⟨1, 8⟩⟩, ⟨.int 1, ⟨1, 12⟩⟩, ⟨.symbol .closeParen, ⟨1, 13⟩⟩,
        ⟨.symbol .semicolon, ⟨1, 14⟩⟩], ⟨1, 15⟩⟩ :=
    TokenStream.ofText_of_toOption (by decide +kernel)
  let stmt : Stmt := .call "f" [.array [.var "x"], .not (.int 1)]
  have hread : Stmt.ofText 3 "f([x], not 1);".toList = .ok stmt := by
    rw [Stmt.ofText_of_stream hstream]
    rfl
  have hast : Ast.ofText 3 "f([x], not 1);".toList = .ok stmt.toAst := by
    rw [Ast.ofText_eq, hread]
    rfl
  obtain ⟨hparsed, hsafe, hexported⟩ := Descent.never_goes_wrong 3 (by decide)
    "f([x], not 1);".toList 29 4 (by decide) (by decide)
  obtain ⟨-, last, -, hdepth, hprogram⟩ := hsafe _ hstream
  obtain ⟨-, final, hexport, hfacts, hissued, -⟩ := hexported _ hast
  rw [hast] at hparsed hprogram
  exact ⟨stmt.toAst, final, _, last, hparsed, hstream, hprogram, hdepth, hexport, hfacts, hissued⟩

end ScriptFacts
