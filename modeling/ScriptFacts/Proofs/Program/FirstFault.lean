import ScriptFacts.Proofs.Program.ExactGrammar
import ScriptFacts.Proofs.Program.Lookahead
import ScriptFacts.Proofs.Token.Written

/-!
# The first impossible token

A text that is refused, with nesting levels enough for its length, is refused at the first token
that makes it impossible to complete: what stands before that token begins some script, and no
script goes on with it. The end of the text counts as a token.

* `TokenStream.sequence_lookAt`: where an error is placed, and what it says was found.
* `Stmt.refused_at_first_fault`: the first impossible token.
-/
namespace ScriptFacts

/-! ## Sequences with an end -/

/-- What stands in a text where its tokens are, and where it ends. -/
def Found.sequence (tokens : List Token) : List Found :=
  tokens.map .token ++ [.endOfFile]

/-- Tokens before which two sequences agree are the beginning of both. -/
theorem Found.take_sequence (passed rest missing : List Token) :
    (Found.sequence (passed ++ rest)).take passed.length
      <+: Found.sequence (passed ++ missing) := by
  have htake : (Found.sequence (passed ++ rest)).take passed.length = passed.map .token := by
    simp [sequence]
  rw [htake]
  simp [sequence, List.map_append]

/-- What begins like a sequence up to and including a token agrees on the tokens before it and on
the token itself. -/
theorem Found.exists_more {passed rest tokens : List Token}
    (h : (Found.sequence (passed ++ rest)).take (passed.length + 1) <+: Found.sequence tokens) :
    ∃ more, tokens = passed ++ more ∧ more.head? = rest.head? := by
  induction passed generalizing tokens with
  | nil =>
    refine ⟨tokens, rfl, ?_⟩
    cases rest <;> cases tokens <;> simp [sequence] at h ⊢
    exact h.symm
  | cons token passed ih =>
    cases tokens with
    | nil => simp [sequence] at h
    | cons first tokens =>
      simp only [sequence, List.cons_append, List.map_cons, List.length_cons, List.take_succ_cons,
        List.cons_prefix_cons, Found.token.injEq] at h
      obtain ⟨rfl, htokens⟩ := h
      obtain ⟨more, rfl, hmore⟩ := ih htokens
      exact ⟨more, rfl, hmore⟩

namespace TokenStream

/-- The tokens of a stream and its end, each with the place where it stands. -/
def sequence (stream : TokenStream) : List (Text.Location × Found) :=
  stream.placed.map (fun placed => (placed.location, .token placed.token))
    ++ [(stream.finish, .endOfFile)]

theorem map_snd_sequence (stream : TokenStream) :
    stream.sequence.map Prod.snd = Found.sequence stream.tokens := by
  simp [sequence, Found.sequence, tokens]

/-- Where so many tokens are left to read, the sequence has what `lookAt` tells. -/
theorem sequence_lookAt (stream : TokenStream) (remaining : Nat) :
    stream.sequence[stream.placed.length - remaining]? = some (stream.lookAt remaining) := by
  unfold lookAt sequence
  by_cases hlt : stream.placed.length - remaining < stream.placed.length
  · rw [List.getElem?_append_left (by simpa using hlt), List.drop_eq_getElem_cons hlt]
    simp [hlt]
  · have hend : stream.placed.length - remaining = stream.placed.length := by omega
    rw [hend, List.getElem?_append_right (by simp), List.drop_length]
    simp

theorem length_placed (stream : TokenStream) : stream.placed.length = stream.tokens.length := by
  rw [tokens, List.length_map]

end TokenStream

/-! ## Refusals -/

/-- Marks and the name `x` can be written. -/
theorem Token.Filler.writable {token : Token} (h : token.Filler) : token.Writable := by
  cases token with
  | symbol mark => trivial
  | name text =>
    obtain rfl : text = "x" := h
    exact ⟨by decide, by decide⟩
  | int _ | string _ | keyword _ => exact h.elim

namespace Stmt

/-- An error in the text of a stream is a refusal, placed there. -/
theorem ofStream_eq_error_iff {limit : Nat} {stream : TokenStream} {error : SyntaxError} :
    ofStream limit stream = .error error ↔ ∃ refusal,
      ofTokens limit stream.tokens = .error refusal ∧ stream.errorOf limit refusal = error := by
  unfold ofStream
  cases ofTokens limit stream.tokens <;> simp [Except.mapError]

/-- What has a derivation has a text, if its tokens can be written. -/
theorem exists_text {limit : Nat} {tokens : List Token} {stmt : Stmt}
    (hwritable : ∀ token ∈ tokens, token.Writable) (h : Derives limit tokens stmt) :
    ∃ text stream, TokenStream.ofText text = .ok stream ∧ stream.tokens = tokens
      ∧ ofText limit text = .ok stmt := by
  obtain ⟨stream, hstream, htokens⟩ := TokenStream.tokens_of_writeAll hwritable
  have hread : ofText limit (Token.writeAll tokens) = .ok stmt :=
    ofText_eq_ok_iff.mpr ⟨stream, hstream, by rwa [htokens]⟩
  exact ⟨Token.writeAll tokens, stream, hstream, htokens, hread⟩

/-- The error is at a token, or at the end, such that what stands before it begins a script under
the same limit, and no script under any limit begins with that much and the token. -/
theorem refused_at_first_fault (limit : Nat) (text : List Char) (stream : TokenStream)
    (error : SyntaxError) (hstream : TokenStream.ofText text = .ok stream)
    (hlimit : stream.size + 1 ≤ limit) (herror : ofText limit text = .error error) :
    ∃ k, stream.sequence[k]? = some (error.location, error.found)
      ∧ (∃ other completed stmt, TokenStream.ofText other = .ok completed
        ∧ ofText limit other = .ok stmt
        ∧ (stream.sequence.map Prod.snd).take k <+: completed.sequence.map Prod.snd)
      ∧ ∀ other completed depth stmt, TokenStream.ofText other = .ok completed →
        ofText depth other = .ok stmt →
        ¬ (stream.sequence.map Prod.snd).take (k + 1) <+: completed.sequence.map Prod.snd := by
  rw [ofText_of_stream hstream] at herror
  obtain ⟨refusal, hrefusal, rfl⟩ := ofStream_eq_error_iff.mp herror
  have hlength : stream.tokens.length + 2 ≤ limit := by
    unfold TokenStream.tokens
    unfold TokenStream.size at hlimit
    rw [List.length_map]
    omega
  obtain ⟨passed, expectation, hunexpected, htokens, missing, stmt, hmissing, hstmt⟩ :=
    completable_of_ofTokens hlength hrefusal
  have hpassed : stream.placed.length - refusal.rest.length = passed.length := by
    rw [TokenStream.length_placed, htokens, List.length_append]
    omega
  refine ⟨passed.length, hpassed ▸ stream.sequence_lookAt refusal.rest.length, ?_, ?_⟩
  · have hwritable : ∀ token ∈ passed ++ missing, token.Writable := by
      intro token htoken
      rcases List.mem_append.mp htoken with hpassed | hmiss
      · apply TokenStream.writable_of_ofText hstream
        rw [htokens]
        exact List.mem_append_left _ hpassed
      · exact (hmissing token hmiss).writable
    obtain ⟨other, completed, hcompleted, hall, hother⟩ := exists_text hwritable hstmt
    refine ⟨other, completed, stmt, hcompleted, hother, ?_⟩
    rw [TokenStream.map_snd_sequence, TokenStream.map_snd_sequence, htokens, hall]
    exact Found.take_sequence passed refusal.rest missing
  · intro other completed depth stmt' hcompleted hother hbegins
    rw [TokenStream.map_snd_sequence, TokenStream.map_snd_sequence, htokens] at hbegins
    obtain ⟨more, hmore, hhead⟩ := Found.exists_more hbegins
    obtain ⟨completed', hcompleted', hderives⟩ := ofText_eq_ok_iff.mp hother
    obtain rfl := Except.ok.inj (hcompleted.symm.trans hcompleted')
    rw [hmore] at hderives
    rw [htokens, hunexpected] at hrefusal
    exact not_derives_of_ofTokens hrefusal hhead hderives

/-- In `x = ;` the semicolon is in the way: `x =` begins a script, and `x = ;` does not. -/
theorem refused_at_first_fault_semicolon :
    ∃ other completed stmt, TokenStream.ofText other = .ok completed
      ∧ ofText 5 other = .ok stmt
      ∧ [.token (.name "x"), .token (.symbol .equals)] <+: completed.sequence.map Prod.snd := by
  have hstream : TokenStream.ofText "x = ;".toList = .ok
      ⟨[⟨.name "x", ⟨1, 1⟩⟩, ⟨.symbol .equals, ⟨1, 3⟩⟩, ⟨.symbol .semicolon, ⟨1, 5⟩⟩], ⟨1, 6⟩⟩ :=
    TokenStream.ofText_of_toOption (by decide +kernel)
  obtain ⟨k, hplace, hcompletable, -⟩ := refused_at_first_fault 5 _ _
    ⟨⟨1, 5⟩, .part .expression, .token (.symbol .semicolon)⟩ hstream (by decide)
    (by rw [ofText_of_stream hstream]; rfl)
  obtain rfl : k = 2 := by
    rcases k with _ | _ | _ | _ | k
    all_goals simp [TokenStream.sequence] at hplace ⊢
  exact hcompletable

end Stmt

end ScriptFacts
