import ScriptFacts.Program.Source
import ScriptFacts.Proofs.Arena.Unfold
import ScriptFacts.Proofs.Program.Completeness

/-!
# Scripts are the texts of the grammar

A text that can be cut into tokens is a script under a nesting limit if and only if its tokens have
a derivation within the limit, and then the program that is laid out for it unfolds to the only
tree that they denote.

* `Stmt.ofText_eq_ok_iff`: reading a text is deriving its tokens.
* `Stmt.parses_iff_derives`: the same for the program, with the tree below its root.
-/
namespace ScriptFacts

/-- The stream of a text that is at hand is told by evaluation. -/
theorem TokenStream.ofText_of_toOption {text : List Char} {stream : TokenStream}
    (h : (TokenStream.ofText text).toOption = some stream) :
    TokenStream.ofText text = .ok stream := by
  cases hstream : TokenStream.ofText text with
  | error error => simp [hstream, Except.toOption] at h
  | ok other => rw [hstream] at h; rw [Option.some.inj h]

namespace Stmt

theorem ofStream_eq_ok_iff {limit : Nat} {stream : TokenStream} {stmt : Stmt} :
    ofStream limit stream = .ok stmt ↔ Derives limit stream.tokens stmt := by
  rw [← ofTokens_eq_ok_iff_derives]
  unfold ofStream
  cases ofTokens limit stream.tokens <;> simp [Except.mapError]

theorem ofText_of_stream {limit : Nat} {text : List Char} {stream : TokenStream}
    (hstream : TokenStream.ofText text = .ok stream) :
    ofText limit text = ofStream limit stream := by
  unfold ofText
  rw [hstream]
  rfl

/-- What a text denotes is what its tokens denote. -/
theorem ofText_eq_ok_iff {limit : Nat} {text : List Char} {stmt : Stmt} :
    ofText limit text = .ok stmt ↔
      ∃ stream, TokenStream.ofText text = .ok stream ∧ Derives limit stream.tokens stmt := by
  cases hstream : TokenStream.ofText text with
  | error error => simp [ofText, hstream, bind, Except.bind]
  | ok stream =>
    rw [ofText_of_stream hstream, ofStream_eq_ok_iff]
    simp

/-- The program of a text that is read is the program of its statement. -/
theorem exists_of_map_toAst {result : Except SyntaxError Stmt} {ast : Ast}
    (h : result.map toAst = .ok ast) : ∃ stmt : Stmt, stmt.toAst = ast := by
  cases result with
  | error error => simp [Except.map] at h
  | ok stmt => exact ⟨stmt, Except.ok.inj h⟩

/-- A text is a script exactly when its tokens have a derivation within the limit. Its program then
unfolds to the tree of that derivation, and no derivation of any depth gives another. -/
theorem parses_iff_derives (limit : Nat) (text : List Char) (stream : TokenStream)
    (hstream : TokenStream.ofText text = .ok stream) :
    ((∃ ast, (ofText limit text).map toAst = .ok ast)
        ↔ ∃ stmt, Derives limit stream.tokens stmt)
      ∧ ∀ ast, (ofText limit text).map toAst = .ok ast →
        ∃ stmt, Derives limit stream.tokens stmt ∧ ast.term? = some stmt.term
          ∧ ∀ depth other, Derives depth stream.tokens other → other = stmt := by
  have hread : ∀ ast, (ofText limit text).map toAst = .ok ast →
      ∃ stmt, Derives limit stream.tokens stmt ∧ ast = stmt.toAst := by
    intro ast hast
    rw [ofText_of_stream hstream] at hast
    cases hstmt : ofStream limit stream with
    | error error => simp [hstmt, Except.map] at hast
    | ok stmt =>
      rw [hstmt] at hast
      exact ⟨stmt, ofStream_eq_ok_iff.mp hstmt, (Except.ok.inj hast).symm⟩
  refine ⟨⟨?_, ?_⟩, ?_⟩
  · intro hparses
    obtain ⟨ast, hast⟩ := hparses
    obtain ⟨stmt, hderives, -⟩ := hread ast hast
    exact ⟨stmt, hderives⟩
  · intro hderivable
    obtain ⟨stmt, hderives⟩ := hderivable
    have hstmt := ofText_eq_ok_iff.mpr ⟨stream, hstream, hderives⟩
    exact ⟨stmt.toAst, by rw [hstmt]; rfl⟩
  · intro ast hast
    obtain ⟨stmt, hderives, rfl⟩ := hread ast hast
    refine ⟨stmt, hderives, stmt.term?_toAst, ?_⟩
    intro depth other hother
    exact hother.unique hderives

/-- Subtractions fold to the left: `3-2-1` is a difference less 1. -/
theorem parses_iff_derives_difference :
    ∃ ast, (ofText 2 "print 3-2-1;".toList).map toAst = .ok ast
      ∧ ast.term? = some (print (.binary (.binary (.int 3) .sub (.int 2)) .sub (.int 1))).term := by
  have hderives : Derives 2
      [.keyword .print, .int 3, .symbol .minus, .int 2, .symbol .minus, .int 1, .symbol .semicolon]
      (print (.binary (.binary (.int 3) .sub (.int 2)) .sub (.int 1))) :=
    derives_of_ofTokens (by rfl)
  obtain ⟨hiff, htree⟩ := parses_iff_derives 2 "print 3-2-1;".toList
    ⟨[⟨.keyword .print, ⟨1, 1⟩⟩, ⟨.int 3, ⟨1, 7⟩⟩, ⟨.symbol .minus, ⟨1, 8⟩⟩, ⟨.int 2, ⟨1, 9⟩⟩,
      ⟨.symbol .minus, ⟨1, 10⟩⟩, ⟨.int 1, ⟨1, 11⟩⟩, ⟨.symbol .semicolon, ⟨1, 12⟩⟩], ⟨1, 13⟩⟩
    (TokenStream.ofText_of_toOption (by decide +kernel))
  obtain ⟨ast, hast⟩ := hiff.mpr ⟨_, hderives⟩
  obtain ⟨stmt, -, hterm, hunique⟩ := htree ast hast
  exact ⟨ast, hast, by rw [hterm, ← hunique 2 _ hderives]⟩

end Stmt

end ScriptFacts
