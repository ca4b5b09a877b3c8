import Mathlib.Order.Nat
import ScriptFacts.Proofs.Program.FirstFault

/-!
# The limit on nesting

For every text there is a least limit that suffices for it. From that limit on, reading the text
comes to the same end, whatever it is; below it, reading gives up because of the limit. The least
limit is no more than one above the number of tokens, the end of the text counted as one: every
level is opened at a token of its own, save that an assignment opens two at once.

* `Stmt.ofTokens_eq_of_le`: what does not fail for want of levels is the same with more of them.
* `Stmt.ofTokens_ne_tooDeep`: with two levels more than tokens, levels are never wanting.
* `Stmt.exists_least_limit`: the least limit.
-/
namespace ScriptFacts

/-! ## What messages say -/

/-- A text that begins with a character, but not with `c`. -/
def BeginsOtherwise (c : Char) (text : String) : Prop :=
  ∃ first more, text.toList = first :: more ∧ first ≠ c

theorem BeginsOtherwise.append {c : Char} {text : String} (h : BeginsOtherwise c text)
    (more : String) : BeginsOtherwise c (text ++ more) := by
  obtain ⟨first, rest, htext, hne⟩ := h
  exact ⟨first, rest ++ more.toList, by rw [String.toList_append, htext]; rfl, hne⟩

theorem Expectation.beginsOtherwise_text (expectation : Expectation) :
    BeginsOtherwise 'n' expectation.text := by
  cases expectation with
  | expression | endOfInput => exact ⟨_, _, rfl, by decide⟩
  | name place =>
    have hword : BeginsOtherwise 'n' "identifier " := ⟨_, _, rfl, by decide⟩
    exact hword.append _
  | symbol mark place =>
    have hquote : BeginsOtherwise 'n' "'" := ⟨_, _, rfl, by decide⟩
    exact ((hquote.append _).append _).append _
  | commaOr close place =>
    have hcomma : BeginsOtherwise 'n' "',' or '" := ⟨_, _, rfl, by decide⟩
    exact ((hcomma.append _).append _).append _

/-- A message about the grammar is none about a limit. -/
theorem Expectation.text_ne_nesting (expectation : Expectation) (limit : Nat) :
    expectation.text ≠ "nesting depth at most " ++ limit.repr := by
  intro heq
  obtain ⟨first, more, htext, hne⟩ := expectation.beginsOtherwise_text
  rw [heq, String.toList_append] at htext
  exact hne (List.cons.inj htext).1.symm

/-! ## More levels -/

/-- An outcome that is not for want of levels is that of the reader that outlasts it. -/
theorem Outlasts.eq {α : Type} {other : Reader α} {tokens : List Token}
    {outcome : Except Refusal (α × List Token)} (h : Outlasts (fun _ => other) tokens outcome)
    (hlevels : ∀ rest, outcome ≠ .error (.tooDeep rest)) : other tokens = outcome := by
  cases h with
  | @answer passed rest answer htokens hother =>
    rw [htokens]
    exact hother (passed ++ rest) rest rfl (Nat.le_refl _)
  | tooDeep rest => exact absurd rfl (hlevels rest)

namespace Stmt

/-- Whether all tokens are used up has nothing to do with levels. -/
theorem ofTokens_eq_tooDeep_iff {limit : Nat} {tokens rest : List Token} :
    ofTokens limit tokens = .error (.tooDeep rest)
      ↔ read limit tokens = .error (.tooDeep rest) := by
  unfold ofTokens
  cases read limit tokens with
  | error refusal => simp [bind, Except.bind]
  | ok read =>
    obtain ⟨stmt, rest'⟩ := read
    cases rest' <;> simp [bind, Except.bind]

theorem ofTokens_eq_of_le {limit larger : Nat} {tokens : List Token} (hle : limit ≤ larger)
    (hlevels : ∀ rest, ofTokens limit tokens ≠ .error (.tooDeep rest)) :
    ofTokens larger tokens = ofTokens limit tokens := by
  rcases Nat.lt_or_eq_of_le hle with hlt | rfl
  · have hread : read larger tokens = read limit tokens :=
      (outlasts_read hlt tokens).eq fun rest hrest =>
        hlevels rest (ofTokens_eq_tooDeep_iff.mpr hrest)
    unfold ofTokens
    rw [hread]
  · rfl

theorem ofTokens_ne_tooDeep {limit : Nat} {tokens : List Token} (h : tokens.length + 2 ≤ limit)
    (rest : List Token) : ofTokens limit tokens ≠ .error (.tooDeep rest) := by
  intro hrefused
  obtain ⟨passed, expectation, hunexpected, -⟩ := completable_of_ofTokens h hrefused
  simp at hunexpected

/-- Below some limit the levels are wanting, and from it on there is one outcome. -/
theorem exists_least_limit_of_tokens (tokens : List Token) :
    ∃ least, 1 ≤ least ∧ least ≤ tokens.length + 2
      ∧ (∀ limit < least, ∃ rest, ofTokens limit tokens = .error (.tooDeep rest))
      ∧ ∃ outcome, (∀ rest, outcome ≠ .error (.tooDeep rest))
        ∧ ∀ limit, least ≤ limit → ofTokens limit tokens = outcome := by
  classical
  have hsuffices : ∃ limit, ∀ rest, ofTokens limit tokens ≠ .error (.tooDeep rest) :=
    ⟨tokens.length + 2, ofTokens_ne_tooDeep (Nat.le_refl _)⟩
  refine ⟨Nat.find hsuffices, ?_, Nat.find_min' hsuffices (ofTokens_ne_tooDeep (Nat.le_refl _)), ?_,
    ofTokens (Nat.find hsuffices) tokens, Nat.find_spec hsuffices, ?_⟩
  · -- Without a level, nothing is read at all.
    rw [Nat.one_le_iff_ne_zero]
    intro hzero
    have hspec := Nat.find_spec hsuffices tokens
    rw [hzero] at hspec
    exact hspec rfl
  · intro limit hlt
    simpa using Nat.find_min hsuffices hlt
  · intro limit hle
    exact ofTokens_eq_of_le hle (Nat.find_spec hsuffices)

/-- The bound is met by the empty text: its end is its only token, and the statement and the
expression that are wanting there take two levels. -/
example : ofTokens 1 [] = .error (.tooDeep [])
    ∧ ofTokens 2 [] = .error (.unexpected .expression []) :=
  ⟨rfl, rfl⟩

/-- For every text that can be cut into tokens there is a limit, at most one above their number,
from which on the text gives one program or one error, never about a limit, and below which it gives
an error about the limit. -/
theorem exists_least_limit (text : List Char) (stream : TokenStream)
    (hstream : TokenStream.ofText text = .ok stream) :
    ∃ least, 1 ≤ least ∧ least ≤ stream.size + 1
      ∧ (∃ outcome : Except SyntaxError Ast,
        (∀ limit, least ≤ limit → (ofText limit text).map toAst = outcome)
          ∧ ∀ error, outcome = .error error →
            ∀ limit : Nat, error.wanted.text ≠ "nesting depth at most " ++ limit.repr)
      ∧ ∀ limit < least, ∃ error, (ofText limit text).map toAst = .error error
        ∧ error.wanted.text = "nesting depth at most " ++ limit.repr := by
  obtain ⟨least, hpos, hle, hbelow, outcome, hlevels, habove⟩ :=
    exists_least_limit_of_tokens stream.tokens
  have hsize : stream.tokens.length + 2 = stream.size + 1 := by
    simp [TokenStream.tokens, TokenStream.size]
  have hread (limit : Nat) : (ofText limit text).map toAst
      = ((ofTokens limit stream.tokens).mapError (stream.errorOf limit)).map toAst := by
    rw [ofText_of_stream hstream]
    rfl
  refine ⟨least, hpos, by omega, ?_, ?_⟩
  · cases outcome with
    | ok stmt =>
      refine ⟨.ok stmt.toAst, fun limit hlimit => ?_, fun error herror => by simp at herror⟩
      rw [hread, habove limit hlimit]
      rfl
    | error refusal =>
      cases refusal with
      | tooDeep rest => exact absurd rfl (hlevels rest)
      | unexpected expectation rest =>
        -- Only an error about a limit depends on the limit.
        refine ⟨.error (stream.errorOf least (.unexpected expectation rest)),
          fun limit hlimit => ?_, fun error herror => ?_⟩
        · rw [hread, habove limit hlimit]
          rfl
        · obtain rfl := Except.error.inj herror
          exact expectation.text_ne_nesting
  · intro limit hlt
    obtain ⟨rest, hrefused⟩ := hbelow limit hlt
    refine ⟨stream.errorOf limit (.tooDeep rest), ?_, rfl⟩
    rw [hread, hrefused]
    rfl

/-- A statement, the expression in it and two pairs of parentheses around that take four levels. -/
theorem exists_least_limit_parentheses :
    (∀ limit, 4 ≤ limit → (ofText limit "x = ((1));".toList).map toAst
        = .ok (assign (.var "x") (.int 1)).toAst)
      ∧ ∀ limit < 4, ∃ error, (ofText limit "x = ((1));".toList).map toAst = .error error
        ∧ error.wanted.text = "nesting depth at most " ++ limit.repr := by
  let stream : TokenStream :=
    ⟨[⟨.name "x", ⟨1, 1⟩⟩, ⟨.symbol .equals, ⟨1, 3⟩⟩, ⟨.symbol .openParen, ⟨1, 5⟩⟩,
      ⟨.symbol .openParen, ⟨1, 6⟩⟩, ⟨.int 1, ⟨1, 7⟩⟩, ⟨.symbol .closeParen, ⟨1, 8⟩⟩,
      ⟨.symbol .closeParen, ⟨1, 9⟩⟩, ⟨.symbol .semicolon, ⟨1, 10⟩⟩], ⟨1, 11⟩⟩
  have hstream : TokenStream.ofText "x = ((1));".toList = .ok stream :=
    TokenStream.ofText_of_toOption (by decide +kernel)
  have hthree : (ofText 3 "x = ((1));".toList).map toAst
      = .error ⟨⟨1, 7⟩, .nestingAtMost 3, .token (.int 1)⟩ := by
    rw [ofText_of_stream hstream]
    rfl
  have hfour : (ofText 4 "x = ((1));".toList).map toAst
      = .ok (assign (.var "x") (.int 1)).toAst := by
    rw [ofText_of_stream hstream]
    rfl
  obtain ⟨least, -, -, ⟨outcome, habove, hnever⟩, hbelow⟩ := exists_least_limit _ _ hstream
  have hle : least ≤ 4 := by
    by_contra hlt
    obtain ⟨error, herror, -⟩ := hbelow 4 (by omega)
    rw [hfour] at herror
    cases herror
  have hge : 4 ≤ least := by
    by_contra hlt
    have houtcome := habove 3 (by omega)
    rw [hthree] at houtcome
    exact hnever _ houtcome.symm 3 rfl
  obtain rfl := Nat.le_antisymm hle hge
  refine ⟨fun limit hlimit => ?_, hbelow⟩
  rw [habove limit hlimit, ← habove 4 (Nat.le_refl 4), hfour]

end Stmt

end ScriptFacts
