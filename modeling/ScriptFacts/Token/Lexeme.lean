import ScriptFacts.Text.Alphanumeric
import ScriptFacts.Text.Blank
import ScriptFacts.Token.Basic

/-!
# Cutting a text into lexemes

A text is a run of lexemes, the source texts of its tokens, with gaps of blanks and comments
around them. A comment goes from a `#` up to the end of its line. Each lexeme is the longest that
can begin where it begins.

Cutting loses nothing and knows no places: it keeps each gap and each lexeme as it was written.

* `splitGap_append`: the gap and what follows it are the text.
* `flatten_cut`: what is cut, put together again, is the text.
-/
namespace ScriptFacts

open Text

/-! ## Gaps -/

/-- Cuts the leading blanks and comments off a text; `comment` says that a comment is open. -/
def splitGap (comment : Bool) : List Char → List Char × List Char
  | [] => ([], [])
  | c :: text =>
    if comment || isBlank c || c == '#' then
      let (gap, rest) := splitGap (if comment then c != '\n' else c == '#') text
      (c :: gap, rest)
    else ([], c :: text)

theorem splitGap_append (comment : Bool) (text : List Char) :
    (splitGap comment text).1 ++ (splitGap comment text).2 = text := by
  induction text generalizing comment with
  | nil => rfl
  | cons c text ih =>
    unfold splitGap
    split
    · simp [ih]
    · rfl

theorem length_splitGap_le (comment : Bool) (text : List Char) :
    (splitGap comment text).2.length ≤ text.length := by
  have h := congrArg List.length (splitGap_append comment text)
  rw [List.length_append] at h
  omega

/-! ## Single tokens -/

/-- Whether a word can begin with `c`. -/
def startsWord (c : Char) : Bool :=
  c.isAlpha || c == '_'

/-- Whether a word can go on with `c`. -/
def continuesWord (c : Char) : Bool :=
  isAlphanumeric c || c == '_'

/-- Why no token can be read at some place. -/
inductive Fault
  /-- A string has no closing quote. -/
  | unclosedString
  /-- No token begins with this character. -/
  | strangeCharacter (c : Char)
deriving DecidableEq, Repr

/-- Reads the token that begins with `c`, and tells how many characters of `text` belong to it. -/
def readToken (c : Char) (text : List Char) : Except Fault (Token × Nat) :=
  if c = '"' then
    let inner := text.takeWhile (· != '"')
    if inner.length < text.length then .ok (.string (String.ofList inner), inner.length + 1)
    else .error .unclosedString
  else if c.isDigit then
    let digits := text.takeWhile Char.isDigit
    .ok (.int (Nat.ofDigitChars 10 (c :: digits) 0), digits.length)
  else if startsWord c then
    let letters := text.takeWhile continuesWord
    .ok (Token.ofWord (String.ofList (c :: letters)), letters.length)
  else if c = '=' ∧ text.head? = some '=' then .ok (.symbol .doubleEquals, 1)
  else match Symbol.ofChar? c with
    | some mark => .ok (.symbol mark, 0)
    | none => .error (.strangeCharacter c)

/-! ## Whole texts -/

/-- A token with the text it was read from and the gap before it. -/
structure Lexeme where
  gap : List Char
  text : List Char
  token : Token
deriving DecidableEq, Repr

/-- What follows the last lexeme. -/
inductive Ending
  /-- Nothing but a gap. -/
  | finished (gap : List Char)
  /-- A gap, and then text at which no token can be read. -/
  | stuck (gap : List Char) (fault : Fault) (rest : List Char)
deriving DecidableEq, Repr

/-- Cuts a text into lexemes, up to its end or to the first fault. -/
def cut (text : List Char) : List Lexeme × Ending :=
  match _h : splitGap false text with
  | (gap, []) => ([], .finished gap)
  | (gap, c :: more) =>
    match readToken c more with
    | .error fault => ([], .stuck gap fault (c :: more))
    | .ok (token, n) =>
      let (lexemes, ending) := cut (more.drop n)
      (⟨gap, c :: more.take n, token⟩ :: lexemes, ending)
termination_by text.length
decreasing_by
  have := length_splitGap_le false text
  simp_all
  omega

/-- The text of an ending. -/
def Ending.flatten : Ending → List Char
  | finished gap => gap
  | stuck gap _ rest => gap ++ rest

/-- The text of a run of lexemes. -/
def Lexeme.flatten (lexemes : List Lexeme) : List Char :=
  lexemes.flatMap fun lexeme => lexeme.gap ++ lexeme.text

theorem flatten_cut (text : List Char) :
    Lexeme.flatten (cut text).1 ++ (cut text).2.flatten = text := by
  fun_induction cut text with
  | case1 text gap h => simpa [Lexeme.flatten, Ending.flatten, h] using splitGap_append false text
  | case2 text gap c more h fault hread =>
    simpa [Lexeme.flatten, Ending.flatten, h] using splitGap_append false text
  | case3 text gap c more h token n hread lexemes ending hcut ih =>
    have hgap : gap ++ c :: more = text := by simpa [h] using splitGap_append false text
    rw [hcut] at ih
    simp only [Lexeme.flatten, List.flatMap_cons, List.append_assoc, List.cons_append] at ih ⊢
    rw [ih, List.take_append_drop, hgap]

end ScriptFacts
