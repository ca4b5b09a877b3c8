/-!
# Places in a text

A place is a line and a column, both counted from 1. A column counts characters; only a line feed
starts a new line.

* `Location.after_append`: passing over two texts is passing over them in turn.
* `Location.behind_append`: passing over texts, one leads to the place that all of them tell.
* `Location.before_after`: passing over anything, one goes on.
* `Location.after_lower`: from so many lines further down, one comes so many lines further down.
-/
namespace ScriptFacts.Text

/-- A line and a column, both counted from 1. -/
structure Location where
  line : Nat
  column : Nat
deriving DecidableEq, Repr

namespace Location

/-- The place of the first character of a text. -/
def start : Location := ⟨1, 1⟩

/-- The place after one more character. -/
def next (here : Location) (c : Char) : Location :=
  if c = '\n' then ⟨here.line + 1, 1⟩ else ⟨here.line, here.column + 1⟩

/-- The place after a piece of text that begins `here`. -/
def after (here : Location) (text : List Char) : Location :=
  text.foldl next here

@[simp] theorem after_nil (here : Location) : here.after [] = here := rfl

@[simp] theorem after_cons (here : Location) (c : Char) (text : List Char) :
    here.after (c :: text) = (here.next c).after text := rfl

@[simp] theorem after_append (here : Location) (first second : List Char) :
    here.after (first ++ second) = (here.after first).after second :=
  List.foldl_append

/-! ## Places told by what comes before them -/

/-- The place of whatever comes after a text: one line down for each line feed in it, and one column
along for each character after the last of them. -/
def behind (text : List Char) : Location :=
  ⟨1 + text.count '\n', 1 + (text.reverse.takeWhile (· != '\n')).length⟩

theorem behind_snoc (text : List Char) (c : Char) :
    behind (text ++ [c]) = (behind text).next c := by
  by_cases h : c = '\n'
  · subst h
    simp [behind, next]
    omega
  · simp [behind, next, h]
    omega

theorem behind_append (text more : List Char) :
    behind (text ++ more) = (behind text).after more := by
  induction more generalizing text with
  | nil => rw [List.append_nil, after_nil]
  | cons c more ih => rw [List.append_cons, ih, behind_snoc, after_cons]

theorem behind_eq_after (text : List Char) : behind text = start.after text :=
  behind_append [] text

/-! ## The order of places -/

/-- One place comes before another: on an earlier line, or on the same line further left. -/
def Before (here there : Location) : Prop :=
  here.line < there.line ∨ here.line = there.line ∧ here.column < there.column

theorem Before.trans {a b c : Location} (hab : a.Before b) (hbc : b.Before c) : a.Before c := by
  unfold Before at *
  omega

theorem before_next (here : Location) (c : Char) : here.Before (here.next c) := by
  unfold Before next
  split
  · exact .inl (Nat.lt_succ_self _)
  · exact .inr ⟨rfl, Nat.lt_succ_self _⟩

theorem before_after (here : Location) {text : List Char} (h : text ≠ []) :
    here.Before (here.after text) := by
  induction text generalizing here with
  | nil => exact absurd rfl h
  | cons c text ih =>
    by_cases hmore : text = []
    · subst hmore
      exact before_next here c
    · exact (before_next here c).trans (ih (here.next c) hmore)

/-! ## Moving down -/

/-- The place so many lines further down. -/
def lower (lines : Nat) (here : Location) : Location :=
  { here with line := here.line + lines }

theorem next_lower (lines : Nat) (here : Location) (c : Char) :
    (here.lower lines).next c = (here.next c).lower lines := by
  unfold next lower
  split
  · simp
    omega
  · rfl

theorem after_lower (lines : Nat) (here : Location) (text : List Char) :
    (here.lower lines).after text = (here.after text).lower lines := by
  induction text generalizing here with
  | nil => rfl
  | cons c text ih => rw [after_cons, after_cons, next_lower, ih]

end Location

end ScriptFacts.Text
