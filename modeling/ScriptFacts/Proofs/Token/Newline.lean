import ScriptFacts.Proofs.Program.FirstFault
import ScriptFacts.Proofs.Token.Insertion
import ScriptFacts.Proofs.Token.Places

/-!
# Texts one below the other

A line feed between two texts keeps them apart. It ends a comment at the end of the first text, no
token goes on with it, and it is blank, so that all it does is to go before the first gap of the
second text. The lexemes of both texts stay as they were, those of the second further down.

* `IsGap.join`: a line feed between two gaps makes one of them.
* `cut_newline`: what comes below a text is cut as it is alone, but for the gap before it.
* `TokenStream.ofText_below`: a text read below another.
* `TokenStream.ofText_newline`: the tokens of both, or the error of the second.
-/
namespace ScriptFacts

open Text

/-! ## Gaps -/

/-- A gap that ends a text, a line feed, and a gap are one gap. -/
theorem IsGap.join {gap more rest : List Char} (h : IsGap gap []) (hmore : IsGap more rest) :
    IsGap (gap ++ '\n' :: more) rest := by
  generalize hend : ([] : List Char) = ending at h
  induction h with
  | nothing => exact .blank (by decide) hmore
  | blank hblank _ ih => exact .blank hblank (ih hend)
  | @comment line gap _ hline hnewline _ ih =>
    subst hend
    rw [List.cons_append, List.append_assoc]
    -- The comment ends where it ended before, or at the new line feed if it went up to the end.
    refine .comment hline ?_ (ih rfl)
    cases gap with
    | nil =>
      intro c hc
      exact (Option.some.inj hc).symm
    | cons d gap => exact hnewline

/-- Below a gap, the gap before a text begins further up. -/
theorem splitGap_newline {gap : List Char} (h : IsGap gap []) (text : List Char) :
    splitGap false (gap ++ '\n' :: text)
      = (gap ++ '\n' :: (splitGap false text).1, (splitGap false text).2) := by
  have hjoined := h.join (isGap_splitGap text)
  have hsplit := hjoined.splitGap_eq (stops_splitGap false text)
  rwa [List.append_assoc, List.cons_append, splitGap_append] at hsplit

/-! ## Cuts -/

/-- The ending with more text before its gap. -/
def Ending.widen (before : List Char) : Ending → Ending
  | finished gap => finished (before ++ gap)
  | stuck gap fault rest => stuck (before ++ gap) fault rest

/-- A cut text with more text before its first gap. -/
def widenCut (before : List Char) : List Lexeme × Ending → List Lexeme × Ending
  | ([], ending) => ([], ending.widen before)
  | (lexeme :: lexemes, ending) =>
    ({ lexeme with gap := before ++ lexeme.gap } :: lexemes, ending)

/-- Below a gap, a text is cut as it is alone, but for its first gap. -/
theorem cut_gap_newline {gap : List Char} (h : IsGap gap []) (text : List Char) :
    cut (gap ++ '\n' :: text) = widenCut (gap ++ ['\n']) (cut text) := by
  have hsplit := splitGap_newline h text
  generalize htext : splitGap false text = split at hsplit
  obtain ⟨first, rest⟩ := split
  cases rest with
  | nil =>
    rw [cut_of_gap (by rw [hsplit]), cut_of_gap (by rw [htext]), hsplit, htext]
    simp [widenCut, Ending.widen]
  | cons c more =>
    cases hread : readToken c more with
    | error fault =>
      rw [cut_of_fault hsplit hread, cut_of_fault htext hread]
      simp [widenCut, Ending.widen]
    | ok read =>
      rw [cut_eq_cons hsplit hread, cut_eq_cons htext hread]
      simp [widenCut]

/-- No token goes on with a line feed. -/
theorem replaces_newline (gap text : List Char) : Replaces gap (gap ++ '\n' :: text) := by
  intro c hc
  cases gap with
  | nil =>
    obtain rfl : '\n' = c := Option.some.inj hc
    exact .inr (Token.goesOn_eq_false (by decide) (by decide) (by decide))
  | cons d gap => exact .inl hc

/-- Below another text, a text is cut as it is alone, but for its first gap. -/
theorem cut_newline {first gap : List Char} {lexemes : List Lexeme}
    (h : cut first = (lexemes, .finished gap)) (second : List Char) :
    cut (first ++ '\n' :: second)
      = (lexemes ++ (widenCut (gap ++ ['\n']) (cut second)).1,
        (widenCut (gap ++ ['\n']) (cut second)).2) := by
  have hfirst : Splits first (lexemes ++ []) gap [] := by
    rw [List.append_nil]
    exact cut_eq_finished_iff.mp h
  obtain ⟨more, rfl, hmore, hexchange⟩ := hfirst.exists_rest
  cases hmore with
  | nil hgap =>
    -- What takes the place of the last gap is that gap, the line feed and the second text.
    obtain ⟨last, rest, hsplits, hfits⟩ := cut_eq_iff.mp (cut_gap_newline hgap second)
    rw [List.append_nil] at hexchange ⊢
    rw [List.append_assoc]
    exact cut_eq_iff.mpr ⟨last, rest, hexchange hsplits (replaces_newline gap second), hfits⟩

namespace TokenStream

/-- Places do not tell whether passed text belongs to the first gap or to what comes before. -/
theorem ofCut_widenCut (here : Location) (before : List Char) (lexemes : List Lexeme)
    (ending : Ending) :
    ofCut here (widenCut before (lexemes, ending)).1 (widenCut before (lexemes, ending)).2
      = ofCut (here.after before) lexemes ending := by
  cases lexemes with
  | nil => cases ending <;> simp [widenCut, Ending.widen, ofCut, place, Lexeme.flatten]
  | cons lexeme lexemes => cases ending <;> simp [widenCut, ofCut, place, Lexeme.flatten]

/-- Below a text, one is at the beginning of a line. -/
theorem after_newline (text : List Char) :
    Location.start.after (text ++ ['\n']) = Location.start.lower (1 + text.count '\n') := by
  rw [← Location.behind_eq_after, Location.behind_snoc]
  simp [Location.behind, Location.next, Location.start, Location.lower]
  omega

/-- A text that is read below another is read as it is alone, further down. -/
theorem ofText_below {first : List Char} {stream : TokenStream} (h : ofText first = .ok stream)
    (second : List Char) :
    ofText (first ++ '\n' :: second)
      = (((ofText second).map (lower (1 + first.count '\n'))).mapError
        (SyntaxError.lower (1 + first.count '\n'))).map (prepend stream.placed) := by
  obtain ⟨lexemes, gap, hcut, rfl⟩ := ofText_eq_ok_iff.mp h
  have hfirst : Lexeme.flatten lexemes ++ gap = first := by
    simpa using (cut_eq_finished_iff.mp hcut).flatten
  calc
    ofText (first ++ '\n' :: second)
    _ = ofCut .start (lexemes ++ (widenCut (gap ++ ['\n']) (cut second)).1)
          (widenCut (gap ++ ['\n']) (cut second)).2 := by
      rw [ofText_eq_ofCut, cut_newline hcut]
    _ = (ofCut (Location.start.after (first ++ ['\n'])) (cut second).1 (cut second).2).map
          (prepend (place .start lexemes)) := by
      rw [ofCut_append, ofCut_widenCut, ← Location.after_append, ← List.append_assoc, hfirst]
    _ = _ := by rw [after_newline, ofCut_lower, ← ofText_eq_ofCut]

/-- A text that can be cut, a line feed and another text have the tokens of the first text without
its end and those of the other, as many lines further down as the first text and the line feed take.
An error of the other text stays the same, that much further down. -/
theorem ofText_newline (first second : List Char) (stream : TokenStream)
    (h : ofText first = .ok stream) :
    (∀ other, ofText second = .ok other → ∃ joined,
      ofText (first ++ '\n' :: second) = .ok joined ∧
      joined.sequence = stream.sequence.dropLast
        ++ other.sequence.map fun (place, found) =>
          (⟨place.line + (1 + first.count '\n'), place.column⟩, found)) ∧
    ∀ error, ofText second = .error error →
      ofText (first ++ '\n' :: second) = .error
        ⟨⟨error.location.line + (1 + first.count '\n'), error.location.column⟩,
          error.wanted, error.found⟩ := by
  have hbelow := ofText_below h second
  constructor
  · intro other hother
    rw [hother] at hbelow
    refine ⟨_, hbelow, ?_⟩
    simp [sequence, prepend, lower, Placed.lower, Location.lower]
  · intro error herror
    rw [herror] at hbelow
    exact hbelow

/-- A comment ends, and so do a word and a lone equals sign. -/
theorem ofText_newline_comment :
    (∃ joined, ofText "x = # \"\n=1".toList = .ok joined ∧ joined.sequence = [
      (⟨1, 1⟩, .token (.name "x")), (⟨1, 3⟩, .token (.symbol .equals)),
      (⟨2, 1⟩, .token (.symbol .equals)), (⟨2, 2⟩, .token (.int 1)), (⟨2, 3⟩, .endOfFile)]) ∧
    ofText "x = # \"\n\n \"".toList = .error ⟨⟨3, 2⟩, .closingQuote, .endOfFile⟩ := by
  have hfirst : ofText "x = # \"".toList
      = .ok ⟨[⟨.name "x", ⟨1, 1⟩⟩, ⟨.symbol .equals, ⟨1, 3⟩⟩], ⟨1, 8⟩⟩ :=
    ofText_of_toOption (by decide +kernel)
  have hsecond : ofText "=1".toList
      = .ok ⟨[⟨.symbol .equals, ⟨1, 1⟩⟩, ⟨.int 1, ⟨1, 2⟩⟩], ⟨1, 3⟩⟩ :=
    ofText_of_toOption (by decide +kernel)
  have hfault : ofText "\n \"".toList = .error ⟨⟨2, 2⟩, .closingQuote, .endOfFile⟩ := by
    have hcut : cut "\n \"".toList = ([], .stuck ['\n', ' '] .unclosedString ['"']) := by
      decide +kernel
    exact ofText_eq_error_iff.mpr ⟨_, _, _, _, hcut, rfl⟩
  constructor
  · exact (ofText_newline _ _ _ hfirst).1 _ hsecond
  · exact (ofText_newline _ _ _ hfirst).2 _ hfault

end TokenStream

end ScriptFacts
