import ScriptFacts.Proofs.Program.FirstFault

/-!
# Longest match

The tokens of a text are those of the only split of it that the lexical grammar allows, and where
there is none, the error stands where the longest one is stuck.

* `TokenStream.ofText_maximal_munch`: the tokens of a text, or the error, by the split alone.
-/
namespace ScriptFacts

open Text

namespace TokenStream

/-- A text has a stream exactly if it can be split up to its end, and its tokens are then those of
the only such split. Otherwise the error stands where the only split that is stuck ends. -/
theorem ofText_maximal_munch (text : List Char) :
    ((∃ stream, ofText text = .ok stream) ↔ ∃ lexemes gap, Splits text lexemes gap []) ∧
    (∀ stream, ofText text = .ok stream → ∃ lexemes gap,
      Splits text lexemes gap [] ∧
      (∀ others last, Splits text others last [] → others = lexemes ∧ last = gap) ∧
      stream.sequence.map Prod.snd = Found.sequence (lexemes.map Lexeme.token) ∧
      ∀ lexeme ∈ lexemes,
        (∀ word : Keyword, lexeme.text = word.spelling.toList → lexeme.token = .keyword word) ∧
        (∀ inner, lexeme.token = .string inner →
          lexeme.text = '"' :: (inner.toList ++ ['"'])) ∧
        (∀ value, lexeme.token = .int value →
          Nat.ofDigitChars 10 lexeme.text 0 = value ∧ value.repr.toList = numeral lexeme.text)) ∧
    (∀ error, ofText text = .error error → ∃ lexemes gap c more,
      Splits text lexemes gap (c :: more) ∧ Stuck c more ∧
      (∀ others last d rest, Splits text others last (d :: rest) → Stuck d rest →
        others = lexemes ∧ last = gap ∧ d :: rest = c :: more) ∧
      Lexeme.flatten lexemes ++ gap ++ c :: more = text ∧
      error.location = Location.start.after (Lexeme.flatten lexemes ++ gap) ∧
      ((c = '"' ∧ '"' ∉ more ∧ error.wanted = .closingQuote ∧ error.found = .endOfFile) ∨
        (c ≠ '"' ∧ (∀ letters token, ¬ Spells (c :: letters) token) ∧
          error.wanted = .token ∧ error.found = .character c))) := by
  refine ⟨⟨?_, ?_⟩, ?_, ?_⟩
  · rintro ⟨stream, hstream⟩
    obtain ⟨lexemes, gap, hcut, -⟩ := ofText_eq_ok_iff.mp hstream
    exact ⟨lexemes, gap, cut_eq_finished_iff.mp hcut⟩
  · rintro ⟨lexemes, gap, hsplits⟩
    exact ⟨_, ofText_eq_ok_iff.mpr ⟨lexemes, gap, cut_eq_finished_iff.mpr hsplits, rfl⟩⟩
  · intro stream hstream
    obtain ⟨lexemes, gap, hcut, rfl⟩ := ofText_eq_ok_iff.mp hstream
    have hsplits := cut_eq_finished_iff.mp hcut
    refine ⟨lexemes, gap, hsplits, ?_, ?_, ?_⟩
    · intro others last hothers
      have hsame := (cut_eq_finished_iff.mpr hothers).symm.trans hcut
      obtain ⟨rfl, hending⟩ := Prod.mk.inj hsame
      exact ⟨rfl, Ending.finished.inj hending⟩
    · rw [map_snd_sequence, tokens, tokens_place]
    · intro lexeme hmem
      have hspells := hsplits.spells lexeme hmem
      refine ⟨fun word hword => ?_, fun inner htoken => ?_, fun value htoken => ?_⟩
      · exact hspells.unique (hword ▸ .reserved word)
      · exact (htoken ▸ hspells).text_of_string
      · exact (htoken ▸ hspells).numeral_of_int
  · intro error herror
    obtain ⟨lexemes, gap, fault, rest, hcut, rfl⟩ := ofText_eq_error_iff.mp herror
    obtain ⟨hsplits, c, more, rfl, hstuck, hread⟩ := cut_eq_stuck_iff.mp hcut
    refine ⟨lexemes, gap, c, more, hsplits, hstuck, ?_, hsplits.flatten, ?_, ?_⟩
    · intro others last d rest hothers hother
      obtain ⟨-, other, hfault⟩ := stuck_iff.mp hother
      have hsame := (cut_eq_stuck_iff.mpr ⟨hothers, d, rest, rfl, hother, hfault⟩).symm.trans hcut
      obtain ⟨rfl, hending⟩ := Prod.mk.inj hsame
      obtain ⟨rfl, -, hrest⟩ := Ending.stuck.inj hending
      exact ⟨rfl, rfl, hrest⟩
    · cases fault <;> rw [Location.after_append] <;> rfl
    · rcases readToken_eq_error hread with ⟨hc, hmore, rfl⟩ | ⟨hc, rfl, hnone⟩
      · exact .inl ⟨hc, hmore, rfl, rfl⟩
      · exact .inr ⟨hc, not_spells_of_readToken hnone, rfl, rfl⟩

/-- A `#` in a string begins no comment, a quote in a comment begins no string, and of three equals
signs the first two belong together. -/
theorem ofText_maximal_munch_quotes :
    (∃ lexemes gap, Splits "print 007===\"#\"#\"".toList lexemes gap [] ∧
      Found.sequence (lexemes.map Lexeme.token) = [.token (.keyword .print), .token (.int 7),
        .token (.symbol .doubleEquals), .token (.symbol .equals), .token (.string "#"),
        .endOfFile]) ∧
    ∃ lexemes gap c more, Splits "x #\"\n \"#".toList lexemes gap (c :: more) ∧ Stuck c more ∧
      Location.start.after (Lexeme.flatten lexemes ++ gap) = ⟨2, 2⟩ := by
  constructor
  · have hstream : ofText "print 007===\"#\"#\"".toList = .ok
        ⟨[⟨.keyword .print, ⟨1, 1⟩⟩, ⟨.int 7, ⟨1, 7⟩⟩, ⟨.symbol .doubleEquals, ⟨1, 10⟩⟩,
          ⟨.symbol .equals, ⟨1, 12⟩⟩, ⟨.string "#", ⟨1, 13⟩⟩], ⟨1, 18⟩⟩ :=
      ofText_of_toOption (by decide +kernel)
    obtain ⟨lexemes, gap, hsplits, -, htokens, -⟩ := (ofText_maximal_munch _).2.1 _ hstream
    exact ⟨lexemes, gap, hsplits, htokens.symm⟩
  · have hcut : cut "x #\"\n \"#".toList = ([⟨[], ['x'], .name "x"⟩],
        .stuck [' ', '#', '"', '\n', ' '] .unclosedString ['"', '#']) := by
      decide +kernel
    obtain ⟨lexemes, gap, c, more, hsplits, hstuck, -, -, hlocation, -⟩ :=
      (ofText_maximal_munch _).2.2 _ (ofText_eq_error_iff.mpr ⟨_, _, _, _, hcut, rfl⟩)
    exact ⟨lexemes, gap, c, more, hsplits, hstuck, hlocation.symm⟩

end TokenStream

end ScriptFacts
