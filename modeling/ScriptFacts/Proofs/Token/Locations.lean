import ScriptFacts.Proofs.Program.FirstFault
import ScriptFacts.Proofs.Token.Cursor

/-!
# Exact places

Every token of a text is placed at its first character, the end of the text counting as a token,
and every error at the character where no token can be read. The line counts the line feeds before
that character, and the column the characters after the last of them.

* `Splits.exists_first`: where the first character of a lexeme stands.
* `TokenStream.pairwise_sequence`: places increase along a text.
* `TokenStream.ofText_locations`: where tokens and errors are placed.
-/
namespace ScriptFacts

open Text

theorem Spells.ne_nil {text : List Char} {token : Token} (h : Spells text token) : text ≠ [] := by
  obtain ⟨c, letters, rfl, -⟩ := h.exists_readToken []
  exact List.cons_ne_nil c letters

/-- A lexeme stands behind the lexemes before it and its own gap. -/
theorem Splits.exists_first {text gap rest : List Char} {lexemes : List Lexeme} {index : Nat}
    {lexeme : Lexeme} (h : Splits text lexemes gap rest) (hlexeme : lexemes[index]? = some lexeme) :
    ∃ more, text
      = Lexeme.flatten (lexemes.take index) ++ lexeme.gap ++ (lexeme.text ++ more) := by
  obtain ⟨hindex, rfl⟩ := List.getElem?_eq_some_iff.mp hlexeme
  refine ⟨Lexeme.flatten (lexemes.drop (index + 1)) ++ gap ++ rest, ?_⟩
  have hlexemes : lexemes.take index ++ lexemes[index] :: lexemes.drop (index + 1) = lexemes := by
    rw [← List.drop_eq_getElem_cons hindex, List.take_append_drop]
  calc
    text = Lexeme.flatten lexemes ++ gap ++ rest := h.flatten.symm
    _ = Lexeme.flatten (lexemes.take index ++ lexemes[index] :: lexemes.drop (index + 1))
          ++ gap ++ rest := by rw [hlexemes]
    _ = _ := by
      rw [Lexeme.flatten_append]
      simp only [Lexeme.flatten, List.flatMap_cons, List.append_assoc]

namespace TokenStream

/-- The sequence of the stream of some lexemes has their places and the place of the end. -/
theorem map_fst_sequence (here : Location) (lexemes : List Lexeme) (gap : List Char) :
    (sequence ⟨place here lexemes, (here.after (Lexeme.flatten lexemes)).after gap⟩).map Prod.fst
      = places here lexemes gap := by
  simp [sequence, places]

theorem length_place (here : Location) (lexemes : List Lexeme) :
    (place here lexemes).length = lexemes.length := by
  simpa using congrArg List.length (tokens_place here lexemes)

/-- Along a text, places increase. -/
theorem pairwise_sequence {text : List Char} {stream : TokenStream} (h : ofText text = .ok stream) :
    (stream.sequence.map Prod.fst).Pairwise Location.Before := by
  obtain ⟨lexemes, gap, hcut, rfl⟩ := ofText_eq_ok_iff.mp h
  rw [map_fst_sequence]
  refine pairwise_places ?_ .start gap
  intro lexeme hmem
  exact ((cut_eq_finished_iff.mp hcut).spells lexeme hmem).ne_nil

/-- The counters of a cursor and the places in a stream agree, and they are exact: each token is
placed behind the text before its first character, the end behind all of the text, and an error
behind the text before the character where no token can be read, which is the opening quote if a
string is not closed. -/
theorem ofText_locations (text : List Char) :
    Cursor.readText text = ofText text ∧
    (∀ stream, ofText text = .ok stream →
      (stream.sequence.map Prod.fst).Pairwise Location.Before ∧
      ∃ lexemes gap, Splits text lexemes gap [] ∧
        stream.sequence.length = lexemes.length + 1 ∧
        stream.sequence[lexemes.length]? = some (.behind text, .endOfFile) ∧
        ∀ index lexeme, lexemes[index]? = some lexeme → ∃ before more,
          before = Lexeme.flatten (lexemes.take index) ++ lexeme.gap ∧
          text = before ++ (lexeme.text ++ more) ∧
          stream.sequence[index]? = some (.behind before, .token lexeme.token)) ∧
    ∀ error, ofText text = .error error → ∃ lexemes gap before c more,
      Splits text lexemes gap (c :: more) ∧ Stuck c more ∧
      before = Lexeme.flatten lexemes ++ gap ∧
      text = before ++ c :: more ∧
      error.location = .behind before ∧
      ((c = '"' ∧ '"' ∉ more ∧ error.wanted = .closingQuote ∧ error.found = .endOfFile) ∨
        (c ≠ '"' ∧ error.wanted = .token ∧ error.found = .character c)) := by
  refine ⟨Cursor.readText_eq text, ?_, ?_⟩
  · intro stream hstream
    refine ⟨pairwise_sequence hstream, ?_⟩
    obtain ⟨lexemes, gap, hcut, rfl⟩ := ofText_eq_ok_iff.mp hstream
    have hsplits := cut_eq_finished_iff.mp hcut
    refine ⟨lexemes, gap, hsplits, ?_, ?_, ?_⟩
    · simp [sequence, length_place]
    · have htext := hsplits.flatten
      rw [List.append_nil] at htext
      rw [← Location.after_append, htext, Location.behind_eq_after]
      simp [sequence, length_place]
    · intro index lexeme hlexeme
      obtain ⟨more, hmore⟩ := hsplits.exists_first hlexeme
      have hplace := getElem?_place hlexeme []
      rw [List.nil_append] at hplace
      refine ⟨_, more, rfl, hmore, ?_⟩
      obtain ⟨hindex, -⟩ := List.getElem?_eq_some_iff.mp hlexeme
      rw [sequence, List.getElem?_append_left (by simpa [length_place] using hindex),
        List.getElem?_map]
      exact congrArg _ hplace
  · intro error herror
    obtain ⟨lexemes, gap, fault, rest, hcut, rfl⟩ := ofText_eq_error_iff.mp herror
    obtain ⟨hsplits, c, more, rfl, hstuck, hread⟩ := cut_eq_stuck_iff.mp hcut
    refine ⟨lexemes, gap, _, c, more, hsplits, hstuck, rfl, hsplits.flatten.symm, ?_, ?_⟩
    · rw [Location.behind_eq_after, Location.after_append]
      cases fault <;> rfl
    · rcases readToken_eq_error hread with ⟨hc, hmore, rfl⟩ | ⟨hc, rfl, -⟩
      · exact .inl ⟨hc, hmore, rfl, rfl⟩
      · exact .inr ⟨hc, rfl, rfl⟩

/-- A line feed in a string starts a line, a carriage return does not, and a letter of two bytes is
one character. An unclosed string is placed at its quote. -/
theorem ofText_locations_strings :
    (∃ stream before more, ofText "\"\né\" ==# ü\r\ny".toList = .ok stream ∧
      "\"\né\" ==# ü\r\ny".toList = before ++ ('=' :: '=' :: more) ∧
      stream.sequence[1]? = some (.behind before, .token (.symbol .doubleEquals)) ∧
      Location.behind before = ⟨2, 4⟩) ∧
    ∃ error before more, ofText "x\r # \"\n  \"é\n".toList = .error error ∧
      "x\r # \"\n  \"é\n".toList = before ++ '"' :: more ∧
      error.location = .behind before ∧ Location.behind before = ⟨2, 3⟩ := by
  constructor
  · have hcut : cut "\"\né\" ==# ü\r\ny".toList = ([⟨[], ['"', '\n', 'é', '"'], .string "\né"⟩,
        ⟨[' '], ['=', '='], .symbol .doubleEquals⟩,
        ⟨['#', ' ', 'ü', '\r', '\n'], ['y'], .name "y"⟩], .finished []) := by
      decide +kernel
    have hstream := ofText_eq_ok_iff.mpr ⟨_, _, hcut, rfl⟩
    obtain ⟨-, lexemes, gap, hsplits, -, -, htokens⟩ := (ofText_locations _).2.1 _ hstream
    obtain ⟨rfl, -⟩ := Prod.mk.inj (hcut.symm.trans (cut_eq_finished_iff.mpr hsplits))
    obtain ⟨before, more, rfl, htext, hplace⟩ := htokens 1 _ rfl
    exact ⟨_, _, more, hstream, htext, hplace, by decide⟩
  · have hcut : cut "x\r # \"\n  \"é\n".toList = ([⟨[], ['x'], .name "x"⟩],
        .stuck ['\r', ' ', '#', ' ', '"', '\n', ' ', ' '] .unclosedString
          ['"', 'é', '\n']) := by
      decide +kernel
    have herror := ofText_eq_error_iff.mpr ⟨_, _, _, _, hcut, rfl⟩
    obtain ⟨lexemes, gap, before, c, more, -, -, -, hbefore, hlocation, hfault⟩ :=
      (ofText_locations _).2.2 _ herror
    rcases hfault with ⟨rfl, -⟩ | ⟨-, hwanted, -⟩
    · exact ⟨_, before, more, herror, hbefore, hlocation, hlocation.symm⟩
    · exact absurd hwanted (by decide)

end TokenStream

end ScriptFacts
