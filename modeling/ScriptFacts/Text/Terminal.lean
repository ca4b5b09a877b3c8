/-!
# Text for terminals

A terminal obeys some control characters: the bell, the backspace, the form feed, the escape and the
delete character, and the 32 controls from 0x80 on. Spelling them out by their code points makes a
text harmless. Line ends, tabs and all other characters stay as they are, and so do backslashes, so
the spelling cannot be undone.

* `obeys_of_mem_spellOut`: what is spelled out holds no character that a terminal obeys.
* `spellOut_of_forall`: a text without such characters stays as it is.
-/
namespace ScriptFacts.Text

/-- The controls below 0x80 that a terminal obeys. -/
def isShortControl (c : Char) : Bool :=
  c = '\x07' || c = '\x08' || c = '\x0c' || c = '\x1b' || c = '\x7f'

/-- The controls from 0x80 to 0x9F. -/
def isLongControl (c : Char) : Bool :=
  0x80 ≤ c.toNat && c.toNat ≤ 0x9f

/-- Whether a terminal obeys a character instead of showing it. -/
def obeys (c : Char) : Bool :=
  isShortControl c || isLongControl c

/-- Two hexadecimal digits, in lower case. -/
def hexPair (n : Nat) : List Char :=
  [(n / 16 % 16).digitChar, (n % 16).digitChar]

/-- A character, or the spelling of its code point if a terminal obeys it. -/
def spell (c : Char) : List Char :=
  if isShortControl c then ['\\', 'x'] ++ hexPair c.toNat
  else if isLongControl c then ['\\', 'u', '{'] ++ hexPair c.toNat ++ ['}']
  else [c]

/-- A text in which the characters that a terminal obeys are spelled out. -/
def spellOut (text : String) : String :=
  String.ofList (text.toList.flatMap spell)

/-! ## What is spelled out is harmless -/

theorem obeys_digitChar {n : Nat} (h : n < 16) : obeys n.digitChar = false := by
  have hall : ∀ m < 16, obeys (Nat.digitChar m) = false := by decide
  exact hall n h

theorem obeys_of_mem_hexPair {n : Nat} {c : Char} (h : c ∈ hexPair n) : obeys c = false := by
  simp only [hexPair, List.mem_cons, List.not_mem_nil, or_false] at h
  rcases h with rfl | rfl <;> exact obeys_digitChar (Nat.mod_lt _ (by decide))

theorem obeys_of_mem_spell {c d : Char} (h : d ∈ spell c) : obeys d = false := by
  unfold spell at h
  split at h
  · simp only [List.mem_append, List.mem_cons, List.not_mem_nil, or_false] at h
    rcases h with (rfl | rfl) | h
    · decide
    · decide
    · exact obeys_of_mem_hexPair h
  · split at h
    · simp only [List.mem_append, List.mem_cons, List.not_mem_nil, or_false] at h
      rcases h with ((rfl | rfl | rfl) | h) | rfl
      · decide
      · decide
      · decide
      · exact obeys_of_mem_hexPair h
      · decide
    · next hshort hlong =>
      obtain rfl : d = c := by simpa using h
      simp [obeys, hshort, hlong]

/-- No character that a terminal obeys is left. -/
theorem obeys_of_mem_spellOut {text : String} {c : Char} (h : c ∈ (spellOut text).toList) :
    obeys c = false := by
  simp only [spellOut, String.toList_ofList, List.mem_flatMap] at h
  obtain ⟨d, _, hc⟩ := h
  exact obeys_of_mem_spell hc

theorem spell_of_not_obeys {c : Char} (h : obeys c = false) : spell c = [c] := by
  simp only [obeys, Bool.or_eq_false_iff] at h
  simp [spell, h.1, h.2]

/-- A harmless text stays as it is. -/
theorem spellOut_of_forall {text : String} (h : ∀ c ∈ text.toList, obeys c = false) :
    spellOut text = text := by
  have hall : ∀ cs : List Char, (∀ c ∈ cs, obeys c = false) → cs.flatMap spell = cs := by
    intro cs
    induction cs with
    | nil => intro _; rfl
    | cons c cs ih =>
      intro hcs
      rw [List.flatMap_cons, spell_of_not_obeys (hcs c List.mem_cons_self),
        ih fun d hd => hcs d (List.mem_cons_of_mem c hd)]
      rfl
  rw [spellOut, hall _ h, String.ofList_toList]

end ScriptFacts.Text
