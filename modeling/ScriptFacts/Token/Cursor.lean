import ScriptFacts.Token.Stream

/-!
# Reading a text with a cursor

The tokens of a text, read in one pass by a cursor that goes along its characters. The cursor keeps
its index, and a line and a column that it counts as it goes: every loop passes one character after
the other, and nothing else changes the counters. Nothing in a cursor keeps the index inside the
text or the counters in step with it.
-/
namespace ScriptFacts

open Text

/-- Where a text is being read, with the line and the column that were counted on the way. -/
structure Cursor where
  input : Array Char
  index : Nat
  line : Nat
  column : Nat
deriving DecidableEq, Repr

namespace Cursor

/-- A cursor before the first character of a text. -/
def start (text : List Char) : Cursor := ⟨text.toArray, 0, 1, 1⟩

/-- The place that the counters tell. -/
def location (cursor : Cursor) : Location := ⟨cursor.line, cursor.column⟩

/-- The number of characters that are still to come. -/
def remaining (cursor : Cursor) : Nat := cursor.input.size - cursor.index

/-! ## Single characters -/

/-- The character that comes next. -/
def peek (cursor : Cursor) : Option Char := cursor.input[cursor.index]?

/-- The cursor behind a character. -/
def pass (cursor : Cursor) (c : Char) : Cursor :=
  if c = '\n' then
    { cursor with index := cursor.index + 1, line := cursor.line + 1, column := 1 }
  else { cursor with index := cursor.index + 1, column := cursor.column + 1 }

/-- The next character, and the cursor behind it. -/
def advance (cursor : Cursor) : Option (Char × Cursor) :=
  cursor.peek.map fun c => (c, cursor.pass c)

theorem remaining_advance {cursor next : Cursor} {c : Char} (h : cursor.advance = some (c, next)) :
    next.remaining < cursor.remaining := by
  obtain ⟨d, hpeek, heq⟩ := Option.map_eq_some_iff.mp h
  obtain ⟨rfl, rfl⟩ := Prod.mk.inj heq
  have hlt := (Array.getElem?_eq_some_iff.mp hpeek).1
  unfold pass remaining
  split <;> simp only <;> omega

/-! ## Loops -/

/-- Passes characters of a class, and tells which. -/
def passWhile (p : Char → Bool) (cursor : Cursor) : List Char × Cursor :=
  match _h : cursor.advance with
  | none => ([], cursor)
  | some (c, next) =>
    if p c then
      let (passed, last) := passWhile p next
      (c :: passed, last)
    else ([], cursor)
termination_by cursor.remaining
decreasing_by exact remaining_advance _h

theorem remaining_passWhile (p : Char → Bool) (cursor : Cursor) :
    (cursor.passWhile p).2.remaining ≤ cursor.remaining := by
  fun_induction passWhile p cursor with
  | case1 => exact Nat.le_refl _
  | case2 cursor c next hadvance _ passed last hpassed ih =>
    rw [hpassed] at ih
    exact Nat.le_trans ih (Nat.le_of_lt (remaining_advance hadvance))
  | case3 => exact Nat.le_refl _

/-- Passes blanks, and comments up to the ends of their lines. -/
def passGap (cursor : Cursor) : Cursor :=
  match _h : cursor.advance with
  | none => cursor
  | some (c, next) =>
    if isBlank c then passGap next
    else if c = '#' then passGap (next.passWhile (· != '\n')).2
    else cursor
termination_by cursor.remaining
decreasing_by
  · exact remaining_advance _h
  · exact Nat.lt_of_le_of_lt (remaining_passWhile _ _) (remaining_advance _h)

theorem remaining_passGap (cursor : Cursor) : cursor.passGap.remaining ≤ cursor.remaining := by
  fun_induction passGap cursor with
  | case1 => exact Nat.le_refl _
  | case2 cursor c next hadvance _ ih =>
    have := remaining_advance hadvance
    omega
  | case3 cursor next hadvance _ ih =>
    have := remaining_advance hadvance
    have := remaining_passWhile (· != '\n') next
    omega
  | case4 => exact Nat.le_refl _

/-- Passes what is left of a string and the quote that closes it, and tells what stands before the
quote. -/
def passString (cursor : Cursor) : Option (List Char × Cursor) :=
  match _h : cursor.advance with
  | none => none
  | some (c, next) =>
    if c = '"' then some ([], next)
    else next.passString.map fun (inner, last) => (c :: inner, last)
termination_by cursor.remaining
decreasing_by exact remaining_advance _h

theorem remaining_passString {cursor last : Cursor} {inner : List Char}
    (h : cursor.passString = some (inner, last)) : last.remaining < cursor.remaining := by
  fun_induction passString cursor generalizing inner last with
  | case1 => simp at h
  | case2 cursor next hadvance =>
    obtain ⟨-, rfl⟩ := Prod.mk.inj (Option.some.inj h)
    exact remaining_advance hadvance
  | case3 cursor c next hadvance _ ih =>
    obtain ⟨read, hread, heq⟩ := Option.map_eq_some_iff.mp h
    obtain ⟨-, rfl⟩ := Prod.mk.inj heq
    have := remaining_advance hadvance
    have := ih hread
    omega

/-! ## Tokens -/

/-- Reads the token that begins at the next character, and places it there. -/
def token (cursor : Cursor) : Except SyntaxError (Placed × Cursor) :=
  let here := cursor.location
  match cursor.advance with
  | none => .error ⟨here, .token, .endOfFile⟩
  | some (c, next) =>
    if c = '"' then
      match next.passString with
      | some (inner, last) => .ok (⟨.string (String.ofList inner), here⟩, last)
      | none => .error ⟨here, .closingQuote, .endOfFile⟩
    else if c.isDigit then
      let (digits, last) := next.passWhile Char.isDigit
      .ok (⟨.int (Nat.ofDigitChars 10 (c :: digits) 0), here⟩, last)
    else if startsWord c then
      let (letters, last) := next.passWhile continuesWord
      .ok (⟨Token.ofWord (String.ofList (c :: letters)), here⟩, last)
    else if c = '=' ∧ next.peek = some '=' then
      .ok (⟨.symbol .doubleEquals, here⟩, next.pass '=')
    else
      match Symbol.ofChar? c with
      | some mark => .ok (⟨.symbol mark, here⟩, next)
      | none => .error ⟨here, .token, .character c⟩

theorem remaining_token {cursor last : Cursor} {placed : Placed}
    (h : cursor.token = .ok (placed, last)) : last.remaining < cursor.remaining := by
  unfold token at h
  dsimp only at h
  split at h
  · simp at h
  next c next hadvance =>
  have hnext := remaining_advance hadvance
  split at h
  · split at h
    · next hstring =>
      obtain ⟨-, rfl⟩ := Prod.mk.inj (Except.ok.inj h)
      have := remaining_passString hstring
      omega
    · simp at h
  split at h
  · obtain ⟨-, rfl⟩ := Prod.mk.inj (Except.ok.inj h)
    exact Nat.lt_of_le_of_lt (remaining_passWhile _ _) hnext
  split at h
  · obtain ⟨-, rfl⟩ := Prod.mk.inj (Except.ok.inj h)
    exact Nat.lt_of_le_of_lt (remaining_passWhile _ _) hnext
  split at h
  · next hequals =>
    obtain ⟨-, rfl⟩ := Prod.mk.inj (Except.ok.inj h)
    have hadvance' : next.advance = some ('=', next.pass '=') := by
      rw [advance, hequals.2, Option.map_some]
    have := remaining_advance hadvance'
    omega
  split at h
  · obtain ⟨-, rfl⟩ := Prod.mk.inj (Except.ok.inj h)
    exact hnext
  · simp at h

/-- Reads all tokens that are still to come, up to the end of the text or to the first fault. -/
def stream (cursor : Cursor) : Except SyntaxError TokenStream :=
  let begins := cursor.passGap
  if begins.peek = none then .ok ⟨[], begins.location⟩
  else
    match _h : begins.token with
    | .error error => .error error
    | .ok (placed, next) =>
      (stream next).map fun more => { more with placed := placed :: more.placed }
termination_by cursor.remaining
decreasing_by exact Nat.lt_of_lt_of_le (remaining_token _h) (remaining_passGap cursor)

end Cursor

/-- The tokens of a text, read with a cursor. -/
def Cursor.readText (text : List Char) : Except SyntaxError TokenStream :=
  (Cursor.start text).stream

end ScriptFacts
