import ScriptFacts.Proofs.Token.Splits

/-!
# Putting parentheses into a text

A text stays cut as it was when a parenthesis is put directly before one of its lexemes, or directly
after one. Whether a lexeme ends where it does depends on the next character alone, and no token
goes on with a parenthesis.

* `Spells.isGap`: whatever gap stands before a lexeme stands before any text.
* `Token.goesOn_eq_false`: the characters with which no token goes on.
* `Splits.exists_rest`: the lexemes after some point can be exchanged for others.
* `Splits.parenthesize`: parentheses around a run of lexemes are two more lexemes.
-/
namespace ScriptFacts

/-- A gap after which no line feed stands is a gap before any text. -/
theorem IsGap.of_ne_newline {gap rest other : List Char} {c : Char} (h : IsGap gap (c :: rest))
    (hc : c ≠ '\n') : IsGap gap other := by
  generalize htext : c :: rest = text at h
  induction h with
  | nothing => exact .nothing
  | blank hblank _ ih => exact .blank hblank (ih htext)
  | @comment line gap _ hline hend _ ih =>
    refine .comment hline ?_ (ih htext)
    cases gap with
    | nil =>
      subst htext
      exact absurd (hend c rfl) hc
    | cons d gap => exact hend

/-- Whatever gap stands before a lexeme stands before any text. -/
theorem Spells.isGap {text gap more other : List Char} {token : Token} (h : Spells text token)
    (hgap : IsGap gap (text ++ more)) : IsGap gap other := by
  obtain ⟨c, letters, rfl, -⟩ := h.exists_readToken []
  refine hgap.of_ne_newline ?_
  intro hc
  subst hc
  exact absurd (h.stops more _ rfl).1 (by decide)

/-- What ends before `rest` ends before `other`: it begins in the same way, or with a character with
which no token goes on. -/
def Replaces (rest other : List Char) : Prop :=
  ∀ c ∈ other.head?, rest.head? = some c ∨ ∀ token : Token, token.goesOn c = false

theorem Token.EndsBefore.of_replaces {token : Token} {rest other : List Char}
    (h : token.EndsBefore rest) (hreplaces : Replaces rest other) : token.EndsBefore other := by
  intro c hc
  rcases hreplaces c hc with hsame | hnone
  · exact h c hsame
  · exact hnone token

theorem Replaces.append {rest other : List Char} (h : Replaces rest other) (text : List Char) :
    Replaces (text ++ rest) (text ++ other) := by
  cases text with
  | nil => exact h
  | cons c text =>
    intro d hd
    exact .inl hd

/-- No token goes on with a character that is in no numeral and no word, and is not the second
character of a mark. -/
theorem Token.goesOn_eq_false {c : Char} (hdigit : c.isDigit = false)
    (hword : continuesWord c = false) (hequals : (c == '=') = false) (token : Token) :
    token.goesOn c = false := by
  cases token with
  | int _ => exact hdigit
  | name _ | keyword _ => exact hword
  | string _ => rfl
  | symbol mark =>
    cases mark with
    | equals => exact hequals
    | _ => rfl

theorem Token.goesOn_parenthesis {c : Char} (hc : c = '(' ∨ c = ')') (token : Token) :
    token.goesOn c = false := by
  rcases hc with rfl | rfl
  · exact token.goesOn_eq_false (by decide) (by decide) (by decide)
  · exact token.goesOn_eq_false (by decide) (by decide) (by decide)

/-- The text after some lexemes, and what can be put in its place. -/
theorem Splits.exists_rest {text last rest : List Char} {before lexemes : List Lexeme}
    (h : Splits text (before ++ lexemes) last rest) :
    ∃ more, text = Lexeme.flatten before ++ more ∧ Splits more lexemes last rest
      ∧ ∀ {other others gap behind}, Splits other others gap behind → Replaces more other →
        Splits (Lexeme.flatten before ++ other) (before ++ others) gap behind := by
  induction before generalizing text with
  | nil => exact ⟨text, rfl, h, fun hother _ => hother⟩
  | cons lexeme before ih =>
    cases h with
    | @cons gap letters after _ _ token _ hgap hspells hlongest hsplits =>
      obtain ⟨more, rfl, hmore, hexchange⟩ := ih hsplits
      refine ⟨more, by simp [Lexeme.flatten], hmore, ?_⟩
      intro other others _ _ hother hreplaces
      have hends := (hspells.longest_iff.mp hlongest).of_replaces (hreplaces.append _)
      have hcons := Splits.cons (hspells.isGap hgap) hspells (hspells.longest_iff.mpr hends)
        (hexchange hother hreplaces)
      simpa [Lexeme.flatten] using hcons

/-- Parentheses around a run of lexemes are two more lexemes, and no other lexeme changes. The gap
before the run goes before the opening parenthesis. -/
theorem Splits.parenthesize {text last : List Char} {before more after : List Lexeme}
    {first : Lexeme} (h : Splits text (before ++ first :: more ++ after) last []) :
    Splits
      (Lexeme.flatten before ++ (first.gap ++ ('(' :: (first.text ++ Lexeme.flatten more
        ++ (')' :: (Lexeme.flatten after ++ last))))))
      (before ++ (⟨first.gap, ['('], .symbol .openParen⟩ :: { first with gap := [] } :: more
        ++ ⟨[], [')'], .symbol .closeParen⟩ :: after)) last [] := by
  rw [List.append_assoc] at h
  obtain ⟨rest, -, hrest, houter⟩ := h.exists_rest
  cases hrest with
  | @cons gap letters _ _ _ token _ hgap hspells hlongest hsplits =>
    -- The run itself, with its first lexeme after no gap: only what comes after it changes.
    have hrun : Splits _ (⟨[], letters, token⟩ :: more ++ after) last [] :=
      .cons .nothing hspells hlongest hsplits
    obtain ⟨behind, hbehind, hafter, hinner⟩ := hrun.exists_rest
    obtain rfl : Lexeme.flatten after ++ last = behind := by simpa using hafter.flatten
    have hclose : Splits (')' :: (Lexeme.flatten after ++ last))
        (⟨[], [')'], .symbol .closeParen⟩ :: after) last [] :=
      .cons .nothing (.mark .closeParen) ((Spells.mark _).longest_iff.mpr fun _ _ => rfl) hafter
    have hinner := hinner hclose fun c hc =>
      .inr (Token.goesOn_parenthesis (.inr (Option.some.inj hc).symm))
    have hopen := Splits.cons (hspells.isGap hgap) (.mark .openParen)
      ((Spells.mark _).longest_iff.mpr fun _ _ => rfl) hinner
    have hwhole := houter hopen ?_
    · simpa [Lexeme.flatten, Symbol.spelling] using hwhole
    intro c hc
    cases gap with
    | nil => exact .inr (Token.goesOn_parenthesis (.inl (Option.some.inj hc).symm))
    | cons d gap => exact .inl hc

end ScriptFacts
