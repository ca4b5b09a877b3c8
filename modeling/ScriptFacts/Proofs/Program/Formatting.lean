import ScriptFacts.Proofs.Program.FirstFault
import ScriptFacts.Token.Spacing

/-!
# Formatting

Blanks and comments keep lexemes apart and do nothing else. Lexemes that are spaced otherwise are
cut again as they were: a gap begins with a character at which every token ends, and it is cut off
whole. Reading then sees the same tokens, and it never looks at places: only an error has one, that
of the token at which it arose, and that token is told by how many others come before it.

* `splits_respace`: lexemes spaced otherwise split as they were.
* `Stmt.sameOutcome_ofStream`: the same tokens in other places come to the same.
* `Stmt.ofText_respace`: so do the same lexemes with other blanks and comments.
-/
namespace ScriptFacts

open Text

/-! ## Gaps that were written -/

theorem IsSeparator.isGap_append {gap more rest : List Char} (h : IsSeparator gap)
    (hmore : IsGap more rest) : IsGap (gap ++ more) rest := by
  induction h with
  | nothing => exact hmore
  | blank hblank _ ih => exact .blank hblank ih
  | comment hline _ ih =>
    rw [List.cons_append, List.append_assoc]
    exact .comment hline (by simp) (.blank (by decide) ih)

theorem IsSeparator.isGap {gap : List Char} (h : IsSeparator gap) (rest : List Char) :
    IsGap gap rest := by
  have hnothing : IsGap [] rest := .nothing
  simpa using h.isGap_append hnothing

theorem IsSeparator.apart {gap : List Char} (h : IsSeparator gap) {rest : List Char}
    (hrest : gap = [] → Apart rest) : Apart (gap ++ rest) := by
  cases h with
  | nothing => exact hrest rfl
  | blank hblank _ => simp [Apart, hblank]
  | comment _ _ => simp [Apart]

theorem IsTrailer.isGap {gap : List Char} (h : IsTrailer gap) : IsGap gap [] := by
  cases h with
  | separator hgap => exact hgap.isGap []
  | @comment gap line hgap hline =>
    have hopen : IsGap ('#' :: (line ++ [])) [] := .comment hline (by simp) .nothing
    rw [List.append_nil] at hopen
    exact hgap.isGap_append hopen

theorem IsTrailer.apart {gap : List Char} (h : IsTrailer gap) : Apart gap := by
  cases h with
  | separator hgap =>
    have hend : Apart [] := by simp [Apart]
    simpa using hgap.apart fun _ => hend
  | comment hgap _ => exact hgap.apart fun _ => by simp [Apart]

/-! ## Lexemes that were written -/

/-- What is written after a lexeme begins with a gap, or there is nothing. -/
theorem apart_respace {gaps : List (List Char)} {lexemes : List Lexeme} {last : List Char}
    (hseparators : ∀ gap ∈ gaps, IsSeparator gap) (hne : ∀ gap ∈ gaps, gap ≠ [])
    (hlast : IsTrailer last) : Apart (Lexeme.flatten (Lexeme.respace gaps lexemes) ++ last) := by
  cases gaps with
  | nil => exact hlast.apart
  | cons gap gaps =>
    cases lexemes with
    | nil => exact hlast.apart
    | cons lexeme lexemes =>
      have hgap : gap ≠ [] := hne gap List.mem_cons_self
      simp only [Lexeme.respace, Lexeme.flatten, List.zipWith_cons_cons, List.flatMap_cons,
        List.append_assoc]
      exact (hseparators gap List.mem_cons_self).apart fun hempty => absurd hempty hgap

/-- Lexemes that are spaced otherwise split as they were. -/
theorem splits_respace {gaps : List (List Char)} {lexemes : List Lexeme} {last : List Char}
    (hcount : gaps.length = lexemes.length) (hseparators : ∀ gap ∈ gaps, IsSeparator gap)
    (hne : ∀ gap ∈ gaps.tail, gap ≠ []) (hlast : IsTrailer last)
    (hspells : ∀ lexeme ∈ lexemes, Spells lexeme.text lexeme.token) :
    Splits (Lexeme.flatten (Lexeme.respace gaps lexemes) ++ last) (Lexeme.respace gaps lexemes)
      last [] := by
  induction lexemes generalizing gaps with
  | nil =>
    obtain rfl : gaps = [] := List.length_eq_zero_iff.mp hcount
    have hnil := Splits.nil hlast.isGap
    rwa [List.append_nil] at hnil
  | cons lexeme lexemes ih =>
    obtain ⟨gap, gaps, rfl⟩ : ∃ gap more, gaps = gap :: more :=
      List.exists_cons_of_length_eq_add_one hcount
    obtain ⟨hgap, hgaps⟩ := List.forall_mem_cons.mp hseparators
    obtain ⟨hlexeme, hlexemes⟩ := List.forall_mem_cons.mp hspells
    have hrest := ih (Nat.succ.inj hcount) hgaps
      (fun gap hmem => hne gap (List.mem_of_mem_tail hmem)) hlexemes
    have hcons := Splits.cons (hgap.isGap _) hlexeme
      (hlexeme.longest_of_apart (apart_respace hgaps hne hlast)) hrest
    simpa [Lexeme.respace, Lexeme.flatten] using hcons

theorem map_token_respace {gaps : List (List Char)} {lexemes : List Lexeme}
    (hcount : gaps.length = lexemes.length) :
    (Lexeme.respace gaps lexemes).map Lexeme.token = lexemes.map Lexeme.token := by
  induction lexemes generalizing gaps with
  | nil => simp [Lexeme.respace]
  | cons lexeme lexemes ih =>
    obtain ⟨gap, gaps, rfl⟩ : ∃ gap more, gaps = gap :: more :=
      List.exists_cons_of_length_eq_add_one hcount
    exact congrArg (lexeme.token :: ·) (ih (Nat.succ.inj hcount))

/-- Written lexemes are read as the tokens that they spell. -/
theorem TokenStream.tokens_of_write {spacing : Spacing} {lexemes : List Lexeme}
    (hcount : spacing.gaps.length = lexemes.length)
    (hspells : ∀ lexeme ∈ lexemes, Spells lexeme.text lexeme.token) :
    ∃ stream, TokenStream.ofText (spacing.write lexemes) = .ok stream ∧
      stream.tokens = lexemes.map Lexeme.token := by
  have hsplits :=
    splits_respace hcount spacing.isSeparator spacing.apart spacing.isTrailer hspells
  refine ⟨_, TokenStream.ofText_eq_ok_iff.mpr
    ⟨_, _, cut_eq_finished_iff.mpr hsplits, rfl⟩, ?_⟩
  rw [TokenStream.tokens, TokenStream.tokens_place, map_token_respace hcount]

/-! ## The same tokens in other places -/

/-- In two streams, reading comes to the same: to one program, or to errors that say the same of
tokens with the same position in their streams. -/
inductive SameOutcome (stream other : TokenStream) :
    Except SyntaxError Ast → Except SyntaxError Ast → Prop
  | program (ast : Ast) : SameOutcome stream other (.ok ast) (.ok ast)
  | fault {error error' : SyntaxError} (k : Nat) :
      stream.sequence[k]? = some (error.location, error.found) →
      other.sequence[k]? = some (error'.location, error'.found) →
      error'.wanted = error.wanted → error'.found = error.found →
        SameOutcome stream other (.error error) (.error error')

namespace Stmt

/-- Where reading stops has nothing to do with places: it stops at the same token. -/
theorem sameOutcome_ofStream {stream other : TokenStream} (h : stream.tokens = other.tokens)
    (limit : Nat) : SameOutcome stream other ((ofStream limit stream).map toAst)
      ((ofStream limit other).map toAst) := by
  have hsequence : other.sequence.map Prod.snd = stream.sequence.map Prod.snd := by
    rw [TokenStream.map_snd_sequence, TokenStream.map_snd_sequence, h]
  unfold ofStream
  rw [h]
  cases ofTokens limit other.tokens with
  | ok stmt => exact .program stmt.toAst
  | error refusal =>
    have hplace := stream.sequence_lookAt refusal.rest.length
    have hplace' := other.sequence_lookAt refusal.rest.length
    rw [TokenStream.length_placed, h, ← TokenStream.length_placed] at hplace
    have hfound := congrArg (·[other.placed.length - refusal.rest.length]?) hsequence
    simp only [List.getElem?_map, hplace, hplace', Option.map_some, Option.some.injEq] at hfound
    exact .fault _ hplace hplace' rfl hfound

/-- The lexemes of a text, spaced otherwise, have the same tokens, and under every limit on nesting
they come to the same. -/
theorem ofText_respace (text : List Char) (stream : TokenStream) (spacing : Spacing)
    (hstream : TokenStream.ofText text = .ok stream)
    (hcount : spacing.gaps.length = (cut text).1.length) :
    ∃ other, TokenStream.ofText (spacing.write (cut text).1) = .ok other
      ∧ other.sequence.map Prod.snd = stream.sequence.map Prod.snd
      ∧ ∀ limit, SameOutcome stream other ((ofText limit text).map toAst)
        ((ofText limit (spacing.write (cut text).1)).map toAst) := by
  obtain ⟨lexemes, gap, hcut, hplaced⟩ := TokenStream.ofText_eq_ok_iff.mp hstream
  obtain rfl : lexemes = (cut text).1 := by rw [hcut]
  have htokens : stream.tokens = (cut text).1.map Lexeme.token := by
    rw [hplaced, TokenStream.tokens, TokenStream.tokens_place]
  obtain ⟨other, hother, htokens'⟩ :=
    TokenStream.tokens_of_write hcount (cut_eq_finished_iff.mp hcut).spells
  have hsame : stream.tokens = other.tokens := htokens.trans htokens'.symm
  refine ⟨other, hother, ?_, fun limit => ?_⟩
  · rw [TokenStream.map_snd_sequence, TokenStream.map_snd_sequence, hsame]
  · rw [ofText_of_stream hstream, ofText_of_stream hother]
    exact sameOutcome_ofStream hsame limit

/-- `print 1==2;` with every lexeme but the first set apart: by a comment that holds a quote, by a
tab, by a line feed and by a space; and with a comment at the end that no line feed ends. -/
theorem ofText_respace_comment :
    ∃ stream other, TokenStream.ofText "print 1==2;".toList = .ok stream
      ∧ TokenStream.ofText "print#\"\n1\t==\n2 ;#".toList = .ok other
      ∧ other.sequence.map Prod.snd = stream.sequence.map Prod.snd
      ∧ SameOutcome stream other ((ofText 2 "print 1==2;".toList).map toAst)
        ((ofText 2 "print#\"\n1\t==\n2 ;#".toList).map toAst) := by
  let spacing : Spacing := {
    gaps := [[], ['#', '"', '\n'], ['\t'], ['\n'], [' ']]
    last := ['#']
    isSeparator := by
      have hcomment : IsSeparator ('#' :: (['"'] ++ ['\n'])) := .comment (by decide) .nothing
      have hblank (c : Char) (hc : isBlank c = true) : IsSeparator [c] := .blank hc .nothing
      simpa using ⟨.nothing, hcomment, hblank '\t' (by decide), hblank '\n' (by decide),
        hblank ' ' (by decide)⟩
    apart := by decide
    isTrailer := by
      have hopen : IsTrailer ([] ++ ['#']) := .comment .nothing (by decide)
      exact hopen }
  have hstream : TokenStream.ofText "print 1==2;".toList = .ok
      ⟨[⟨.keyword .print, ⟨1, 1⟩⟩, ⟨.int 1, ⟨1, 7⟩⟩, ⟨.symbol .doubleEquals, ⟨1, 8⟩⟩,
        ⟨.int 2, ⟨1, 10⟩⟩, ⟨.symbol .semicolon, ⟨1, 11⟩⟩], ⟨1, 12⟩⟩ :=
    TokenStream.ofText_of_toOption (by decide +kernel)
  have hcount : spacing.gaps.length = (cut "print 1==2;".toList).1.length := by decide +kernel
  have hwrite : spacing.write (cut "print 1==2;".toList).1
      = "print#\"\n1\t==\n2 ;#".toList := by decide +kernel
  obtain ⟨other, hother, htokens, hsame⟩ := ofText_respace _ _ spacing hstream hcount
  rw [hwrite] at hother hsame
  exact ⟨_, other, hstream, hother, htokens, hsame 2⟩

end Stmt

end ScriptFacts
