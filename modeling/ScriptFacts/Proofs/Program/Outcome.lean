import ScriptFacts.Program.Refusal

/-!
# What an outcome of reading owes

A reader is measured against a language: a relation between token lists and the values that they
denote. Whatever it answers, it has passed over a beginning of the tokens.

* If it gives a value, that beginning denotes the value.
* If it refuses the next token, that beginning can be completed to a text of the language, with
  marks and the name `x`.
* It runs out of nesting levels only on texts that are not shorter than its room.

`Reads` states the three together. A reader made of two, one after the other, is measured against
the language of the whole: after a beginning, what remains to be read is the language of the
tokens that complete it.

* `Reads.bind`: two readers in a row, the second measured against what the first leaves open.
* `Reads.cons`, `Reads.expect`: a token passed over makes the room smaller by one.
-/
namespace ScriptFacts

variable {α β : Type}

/-- A token with which an unfinished text is completed: a mark or the name `x`. -/
def Token.Filler : Token → Prop
  | symbol _ => True
  | name text => text = "x"
  | int _ | string _ | keyword _ => False

/-- A beginning that fillers complete to a text of the language. -/
def Completable (language : List Token → α → Prop) (passed : List Token) : Prop :=
  ∃ missing x, (∀ token ∈ missing, token.Filler) ∧ language (passed ++ missing) x

theorem Completable.of_append {language : List Token → α → Prop} {passed : List Token}
    (missing : List Token) (hmissing : ∀ token ∈ missing, token.Filler)
    (h : Completable language (passed ++ missing)) : Completable language passed := by
  obtain ⟨more, x, hmore, hx⟩ := h
  refine ⟨missing ++ more, x, ?_, by rwa [List.append_assoc] at hx⟩
  intro token htoken
  rcases List.mem_append.mp htoken with h | h
  · exact hmissing token h
  · exact hmore token h

/-- What is a text of the language already needs no filler. -/
theorem Completable.of_language {language : List Token → α → Prop} {passed : List Token} {x : α}
    (hx : language passed x) : Completable language passed :=
  ⟨[], x, by simp, by simpa using hx⟩

/-- A single mark may be all that is missing. -/
theorem Completable.of_mark {language : List Token → α → Prop} {passed : List Token} {x : α}
    {mark : Symbol} (hx : language (passed ++ [.symbol mark]) x) : Completable language passed :=
  ⟨[.symbol mark], x, by simp [Token.Filler], hx⟩

/-- An outcome of reading `tokens` answers for a language. -/
inductive Reads (language : List Token → α → Prop) (room : Nat) (tokens : List Token) :
    Except Refusal (α × List Token) → Prop
  | ok {passed rest x} (htokens : tokens = passed ++ rest) (hx : language passed x) :
    Reads language room tokens (.ok (x, rest))
  | unexpected {passed rest expectation} (htokens : tokens = passed ++ rest)
    (hcompletable : tokens.length < room → Completable language passed) :
    Reads language room tokens (.error (.unexpected expectation rest))
  | tooDeep {passed rest} (htokens : tokens = passed ++ rest) (hdeep : room ≤ tokens.length) :
    Reads language room tokens (.error (.tooDeep rest))

namespace Reads

variable {language : List Token → α → Prop} {room : Nat} {tokens rest : List Token}

/-- Nothing more is read. -/
theorem done {x : α} (hx : language [] x) : Reads language room rest (.ok (x, rest)) :=
  .ok rfl hx

/-- The next token is refused at once. -/
theorem refused {expectation : Expectation} (h : tokens.length < room → Completable language []) :
    Reads language room tokens (.error (.unexpected expectation tokens)) :=
  .unexpected rfl h

theorem of_room_le {larger : Nat} {outcome : Except Refusal (α × List Token)}
    (h : Reads language larger tokens outcome) (hle : room ≤ larger) :
    Reads language room tokens outcome := by
  cases h with
  | ok htokens hx => exact .ok htokens hx
  | unexpected htokens hc => exact .unexpected htokens fun hlt => hc (by omega)
  | tooDeep htokens hdeep => exact .tooDeep htokens (by omega)

theorem imp {whole : List Token → α → Prop} {outcome : Except Refusal (α × List Token)}
    (h : Reads language room tokens outcome)
    (himp : ∀ passed x, language passed x → whole passed x) :
    Reads whole room tokens outcome := by
  cases h with
  | ok htokens hx => exact .ok htokens (himp _ _ hx)
  | unexpected htokens hc =>
    refine .unexpected htokens fun hlt => ?_
    obtain ⟨missing, x, hmissing, hx⟩ := hc hlt
    exact ⟨missing, x, hmissing, himp _ _ hx⟩
  | tooDeep htokens hdeep => exact .tooDeep htokens hdeep

/-- A token passed over leaves room for one token less. -/
theorem cons {token : Token} {smaller : Nat} {outcome : Except Refusal (α × List Token)}
    (hroom : room ≤ smaller + 1)
    (h : Reads (fun more x => language (token :: more) x) smaller rest outcome) :
    Reads language room (token :: rest) outcome := by
  cases h with
  | @ok passed _ _ htokens hx => exact .ok (by rw [htokens, List.cons_append]) hx
  | @unexpected passed _ _ htokens hc =>
    refine .unexpected (by rw [htokens, List.cons_append]) fun hlt => ?_
    exact hc (by simp only [List.length_cons] at hlt; omega)
  | @tooDeep passed _ htokens hdeep =>
    refine .tooDeep (by rw [htokens, List.cons_append]) ?_
    simp only [List.length_cons]
    omega

/-- One reader, and then another that goes on with the value and the tokens after it. -/
theorem bind {first : Reader α} {next : α × List Token → Except Refusal (β × List Token)}
    {whole : List Token → β → Prop}
    (hfirst : Reads language room tokens (first tokens))
    (hclose : tokens.length < room → ∀ passed x, language passed x → Completable whole passed)
    (hnext : ∀ passed x rest, language passed x →
      Reads (fun more y => whole (passed ++ more) y) room rest (next (x, rest))) :
    Reads whole room tokens (first tokens >>= next) := by
  generalize first tokens = outcome at hfirst
  cases hfirst with
  | @ok passed rest x htokens hx =>
    show Reads whole room tokens (next (x, rest))
    have hlen : rest.length ≤ tokens.length := by simp [htokens]
    generalize hafter : next (x, rest) = after
    have hn := hnext passed x rest hx
    rw [hafter] at hn
    cases hn with
    | ok hrest hy => exact .ok (by rw [htokens, hrest, List.append_assoc]) hy
    | @unexpected passed' _ _ hrest hc =>
      refine .unexpected (by rw [htokens, hrest, List.append_assoc]) fun hlt => ?_
      obtain ⟨missing, y, hmissing, hy⟩ := hc (by omega)
      exact ⟨missing, y, hmissing, by rwa [List.append_assoc]⟩
    | tooDeep hrest hdeep =>
      exact .tooDeep (by rw [htokens, hrest, List.append_assoc]) (by omega)
  | unexpected htokens hc =>
    refine .unexpected htokens fun hlt => ?_
    obtain ⟨missing, x, hmissing, hx⟩ := hc hlt
    exact .of_append missing hmissing (hclose hlt _ x hx)
  | tooDeep htokens hdeep => exact .tooDeep htokens hdeep

/-- A mark that must stand here, and then a reader of what follows it. -/
theorem expect {mark : Symbol} {expectation : Expectation} {smaller : Nat}
    {next : List Token → Except Refusal (α × List Token)} (hroom : room ≤ smaller + 1)
    (hclose : tokens.length < room → Completable language [])
    (hnext : ∀ rest,
      Reads (fun more x => language (.symbol mark :: more) x) smaller rest (next rest)) :
    Reads language room tokens (expect mark expectation tokens >>= next) := by
  cases tokens with
  | nil => exact .refused hclose
  | cons token rest =>
    by_cases h : token = .symbol mark
    · subst h
      simp only [ScriptFacts.expect, if_true]
      exact .cons hroom (hnext rest)
    · simp only [ScriptFacts.expect, if_neg h]
      exact .refused hclose

/-- A value that is wrapped when it has been read. -/
theorem map {first : Reader α} {wrap : α → β} {whole : List Token → β → Prop}
    (hfirst : Reads language room tokens (first tokens))
    (hwrap : ∀ passed x, language passed x → whole passed (wrap x)) :
    Reads whole room tokens (first tokens >>= fun read => .ok (wrap read.1, read.2)) :=
  .bind hfirst (fun _ passed x hx => .of_language (hwrap passed x hx))
    fun passed x _ hx => .done (by simpa using hwrap passed x hx)

theorem suffix {x : α} (h : Reads language room tokens (.ok (x, rest))) :
    ∃ passed, tokens = passed ++ rest ∧ language passed x := by
  cases h with
  | ok htokens hx => exact ⟨_, htokens, hx⟩

end Reads

end ScriptFacts
