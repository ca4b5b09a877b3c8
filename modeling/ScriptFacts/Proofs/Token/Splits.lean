import ScriptFacts.Proofs.Token.Spelling

/-!
# Cutting is splitting

A text is cut exactly as the lexical grammar splits it. Each lexeme is the longest spelling and each
gap is cut off whole, so the split that `cut` finds is the only one, and where `cut` stops there is
none that goes on.

* `IsGap.splitGap_eq`, `isGap_splitGap`: gaps are cut off whole.
* `cut_eq_finished_iff`, `cut_eq_stuck_iff`: cutting is splitting.
-/
namespace ScriptFacts

open Text

/-! ## Gaps -/

/-- No gap goes on here. -/
def Stops (rest : List Char) : Prop :=
  ∀ c ∈ rest.head?, isBlank c = false ∧ c ≠ '#'

theorem stops_cons {c : Char} {more : List Char} (h : isBlank c = false ∧ c ≠ '#') :
    Stops (c :: more) := by
  intro d hd
  rwa [← Option.some.inj hd]

/-- Neither a blank nor a comment begins a token. -/
theorem Spells.stops {text : List Char} {token : Token} (h : Spells text token)
    (more : List Char) : Stops (text ++ more) := by
  cases h with
  | digits hne hall =>
    obtain ⟨c, digits, rfl⟩ := List.exists_cons_of_ne_nil hne
    exact stops_cons (not_gap_of_isDigit (hall c List.mem_cons_self))
  | quoted _ => exact stops_cons (by decide)
  | reserved word =>
    obtain ⟨c, letters, hspelling, hstart, -⟩ := exists_of_isWord word.isWord_spelling
    rw [hspelling]
    exact stops_cons (not_gap_of_startsWord hstart)
  | name hstart _ _ => exact stops_cons (not_gap_of_startsWord hstart)
  | mark mark => cases mark <;> exact stops_cons (by decide)

theorem splitGap_of_stops {rest : List Char} (h : Stops rest) :
    splitGap false rest = ([], rest) := by
  cases rest with
  | nil => rfl
  | cons c rest =>
    obtain ⟨hblank, hcomment⟩ := h c rfl
    simp [splitGap, hblank, hcomment]

theorem splitGap_blank {c : Char} (h : isBlank c = true) (text : List Char) :
    splitGap false (c :: text) = (c :: (splitGap false text).1, (splitGap false text).2) := by
  have hcomment : (c == '#') = false := by
    rw [beq_eq_false_iff_ne]
    intro hcomment
    subst hcomment
    exact absurd h (by decide)
  simp [splitGap, h, hcomment]

/-- A comment is passed up to the line feed, which begins a gap of its own. -/
theorem splitGap_comment {line text : List Char} (hline : '\n' ∉ line)
    (htext : ∀ c ∈ text.head?, c = '\n') :
    splitGap false ('#' :: (line ++ text))
      = ('#' :: (line ++ (splitGap false text).1), (splitGap false text).2) := by
  have hopen : splitGap true (line ++ text)
      = (line ++ (splitGap false text).1, (splitGap false text).2) := by
    induction line with
    | nil =>
      cases text with
      | nil => rfl
      | cons c text =>
        obtain rfl : c = '\n' := htext c rfl
        rw [List.nil_append, List.nil_append, splitGap_blank (by decide)]
        rfl
    | cons c line ih =>
      have hc : (c != '\n') = true := bne_iff_ne.mpr (List.ne_of_not_mem_cons hline).symm
      simp [splitGap, hc, ih (List.not_mem_of_not_mem_cons hline)]
  rw [splitGap]
  simp [hopen]

/-- A gap is cut off as a whole. -/
theorem IsGap.splitGap_eq {gap rest : List Char} (h : IsGap gap rest) (hstops : Stops rest) :
    splitGap false (gap ++ rest) = (gap, rest) := by
  induction h with
  | nothing => exact splitGap_of_stops hstops
  | blank hblank _ ih => rw [List.cons_append, splitGap_blank hblank, ih hstops]
  | comment hline hend _ ih =>
    rw [List.cons_append, List.append_assoc, splitGap_comment hline hend, ih hstops]

theorem exists_line (text : List Char) :
    ∃ line more, text = line ++ more ∧ '\n' ∉ line ∧ ∀ c ∈ more.head?, c = '\n' := by
  induction text with
  | nil => exact ⟨[], [], rfl, List.not_mem_nil, by simp⟩
  | cons c text ih =>
    by_cases hc : c = '\n'
    · exact ⟨[], c :: text, rfl, List.not_mem_nil, by simp [hc]⟩
    · obtain ⟨line, more, rfl, hline, hmore⟩ := ih
      exact ⟨c :: line, more, rfl, by simp [Ne.symm hc, hline], hmore⟩

theorem stops_splitGap (comment : Bool) (text : List Char) :
    Stops (splitGap comment text).2 := by
  induction text generalizing comment with
  | nil => simp [Stops, splitGap]
  | cons c text ih =>
    rw [splitGap]
    split
    · exact ih _
    · next h =>
      simp only [Bool.or_eq_true, not_or, beq_iff_eq] at h
      obtain ⟨⟨-, hblank⟩, hcomment⟩ := h
      simp [Stops, hblank, hcomment]

/-- What is cut off is a gap, and it is cut off as a whole. -/
theorem isGap_splitGap (text : List Char) :
    IsGap (splitGap false text).1 (splitGap false text).2 := by
  cases text with
  | nil => exact .nothing
  | cons c text =>
    by_cases hblank : isBlank c = true
    · rw [splitGap_blank hblank]
      exact .blank hblank (isGap_splitGap text)
    by_cases hcomment : c = '#'
    · obtain ⟨line, more, htext, hline, hmore⟩ := exists_line text
      have hlength := congrArg List.length htext
      rw [hcomment, htext, splitGap_comment hline hmore]
      refine .comment hline ?_ (isGap_splitGap more)
      rwa [splitGap_append]
    · rw [splitGap_of_stops (stops_cons ⟨Bool.not_eq_true _ ▸ hblank, hcomment⟩)]
      exact .nothing
termination_by text.length
decreasing_by
  · exact Nat.lt_succ_self _
  · rw [List.length_append] at hlength
    exact Nat.lt_succ_of_le (by omega)

theorem splitGap_spec {text gap rest : List Char} (h : splitGap false text = (gap, rest)) :
    text = gap ++ rest ∧ IsGap gap rest ∧ Stops rest := by
  have happend := splitGap_append false text
  have hgap := isGap_splitGap text
  have hstops := stops_splitGap false text
  rw [h] at happend hgap hstops
  exact ⟨happend.symm, hgap, hstops⟩

/-! ## Splits -/

theorem Splits.flatten {text gap rest : List Char} {lexemes : List Lexeme}
    (h : Splits text lexemes gap rest) : Lexeme.flatten lexemes ++ gap ++ rest = text := by
  induction h with
  | nil _ => rfl
  | cons _ _ _ _ ih =>
    rw [← ih]
    simp [Lexeme.flatten]

theorem Splits.spells {text gap rest : List Char} {lexemes : List Lexeme}
    (h : Splits text lexemes gap rest) :
    ∀ lexeme ∈ lexemes, Spells lexeme.text lexeme.token := by
  induction h with
  | nil _ => simp
  | cons _ hspells _ _ ih =>
    intro lexeme hmem
    rcases List.mem_cons.mp hmem with rfl | hmem
    · exact hspells
    · exact ih lexeme hmem

/-! ## Cuts -/

/-- One lexeme is cut off. -/
theorem cut_eq_cons {text gap more : List Char} {c : Char} {token : Token} {n : Nat}
    (hsplit : splitGap false text = (gap, c :: more)) (hread : readToken c more = .ok (token, n)) :
    cut text
      = (⟨gap, c :: more.take n, token⟩ :: (cut (more.drop n)).1, (cut (more.drop n)).2) := by
  rw [cut]
  split
  · next heq => simp [hsplit] at heq
  · next heq =>
    obtain ⟨rfl, hmore⟩ := Prod.mk.inj (hsplit.symm.trans heq)
    obtain ⟨rfl, rfl⟩ := List.cons.inj hmore
    rw [hread]

/-- Nothing is left but a gap. -/
theorem cut_of_gap {text : List Char} (h : (splitGap false text).2 = []) :
    cut text = ([], .finished (splitGap false text).1) := by
  rw [cut]
  split
  · next heq => rw [heq]
  · next heq => simp [heq] at h

/-- Nothing can be read after the gap. -/
theorem cut_of_fault {text gap more : List Char} {c : Char} {fault : Fault}
    (hsplit : splitGap false text = (gap, c :: more)) (hread : readToken c more = .error fault) :
    cut text = ([], .stuck gap fault (c :: more)) := by
  rw [cut]
  split
  · next heq => simp [hsplit] at heq
  · next heq =>
    obtain ⟨rfl, hmore⟩ := Prod.mk.inj (hsplit.symm.trans heq)
    obtain ⟨rfl, rfl⟩ := List.cons.inj hmore
    rw [hread]

/-- What an ending says of the text after the last lexeme: nothing follows the gap, or something at
which no token can be read. -/
def Ending.Fits (ending : Ending) (gap rest : List Char) : Prop :=
  (ending = .finished gap ∧ rest = []) ∨
    ∃ fault c more, ending = .stuck gap fault rest ∧ rest = c :: more ∧ Stops rest ∧
      readToken c more = .error fault

/-- Cutting finds the split of a text, and there is no other. -/
theorem cut_eq_iff {text : List Char} {lexemes : List Lexeme} {ending : Ending} :
    cut text = (lexemes, ending) ↔
      ∃ gap rest, Splits text lexemes gap rest ∧ ending.Fits gap rest := by
  constructor
  · fun_induction cut text generalizing lexemes ending with
    | case1 text gap hsplit =>
      intro hcut
      obtain ⟨rfl, rfl⟩ := Prod.mk.inj hcut
      obtain ⟨rfl, hgap, -⟩ := splitGap_spec hsplit
      exact ⟨gap, [], .nil hgap, .inl ⟨rfl, rfl⟩⟩
    | case2 text gap c more hsplit fault hread =>
      intro hcut
      obtain ⟨rfl, rfl⟩ := Prod.mk.inj hcut
      obtain ⟨rfl, hgap, hstops⟩ := splitGap_spec hsplit
      exact ⟨gap, c :: more, .nil hgap, .inr ⟨fault, c, more, rfl, rfl, hstops, hread⟩⟩
    | case3 text gap c more hsplit token n hread lexemes ending hcut ih =>
      intro hcons
      obtain ⟨rfl, rfl⟩ := Prod.mk.inj hcons
      obtain ⟨rfl, hgap, -⟩ := splitGap_spec hsplit
      obtain ⟨letters, rest, rfl, rfl, hspells⟩ := readToken_spells hread
      obtain ⟨last, after, hsplits, hfits⟩ := ih hcut
      rw [List.drop_left] at hsplits
      rw [List.take_left]
      exact ⟨last, after, .cons hgap hspells (readToken_longest hread) hsplits, hfits⟩
  · rintro ⟨gap, rest, hsplits, hfits⟩
    induction hsplits with
    | nil hgap =>
      rcases hfits with ⟨rfl, rfl⟩ | ⟨fault, c, more, rfl, rfl, hstops, hread⟩
      · have hsplit := hgap.splitGap_eq (by simp [Stops])
        rw [cut_of_gap (by rw [hsplit]), hsplit]
      · exact cut_of_fault (hgap.splitGap_eq hstops) hread
    | @cons gap text more _ _ _ _ hgap hspells hlongest _ ih =>
      obtain ⟨c, letters, rfl, -⟩ := hspells.exists_readToken []
      have hsplit : splitGap false (gap ++ (c :: letters ++ more))
          = (gap, c :: (letters ++ more)) := hgap.splitGap_eq (hspells.stops more)
      rw [cut_eq_cons hsplit (hspells.readToken_of_longest hlongest), List.drop_left,
        List.take_left, ih hfits]

theorem cut_eq_finished_iff {text gap : List Char} {lexemes : List Lexeme} :
    cut text = (lexemes, .finished gap) ↔ Splits text lexemes gap [] := by
  rw [cut_eq_iff]
  constructor
  · rintro ⟨_, _, hsplits, ⟨heq, rfl⟩ | ⟨_, _, _, heq, -⟩⟩
    · obtain rfl := Ending.finished.inj heq
      exact hsplits
    · simp at heq
  · intro hsplits
    exact ⟨gap, [], hsplits, .inl ⟨rfl, rfl⟩⟩

/-- Text is stuck where no gap goes on and no token can be read. -/
theorem stuck_iff {c : Char} {more : List Char} :
    Stuck c more ↔ Stops (c :: more) ∧ ∃ fault, readToken c more = .error fault := by
  constructor
  · rintro ⟨hblank, hcomment, hnone⟩
    refine ⟨stops_cons ⟨hblank, hcomment⟩, ?_⟩
    cases hread : readToken c more with
    | error fault => exact ⟨fault, rfl⟩
    | ok read =>
      obtain ⟨letters, rest, rfl, -, hspells⟩ := readToken_spells hread
      exact absurd ⟨rest, rfl⟩ (hnone _ _ hspells)
  · rintro ⟨hstops, fault, hread⟩
    obtain ⟨hblank, hcomment⟩ := hstops c rfl
    refine ⟨hblank, hcomment, fun text token hspells hbegins => ?_⟩
    obtain ⟨_, _, _, -, hfound, -⟩ := hspells.readToken_of_prefix hbegins
    rw [hread] at hfound
    simp at hfound

theorem cut_eq_stuck_iff {text gap rest : List Char} {lexemes : List Lexeme} {fault : Fault} :
    cut text = (lexemes, .stuck gap fault rest) ↔
      Splits text lexemes gap rest ∧
        ∃ c more, rest = c :: more ∧ Stuck c more ∧ readToken c more = .error fault := by
  rw [cut_eq_iff]
  constructor
  · rintro ⟨_, _, hsplits, ⟨heq, -⟩ | ⟨_, c, more, heq, hrest, hstops, hread⟩⟩
    · simp at heq
    · obtain ⟨rfl, rfl, rfl⟩ := Ending.stuck.inj heq
      subst hrest
      exact ⟨hsplits, c, more, rfl, stuck_iff.mpr ⟨hstops, _, hread⟩, hread⟩
  · rintro ⟨hsplits, c, more, rfl, hstuck, hread⟩
    exact ⟨gap, _, hsplits, .inr ⟨fault, c, more, rfl, rfl, (stuck_iff.mp hstuck).1, hread⟩⟩

end ScriptFacts
