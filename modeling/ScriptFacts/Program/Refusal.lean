import ScriptFacts.SyntaxError

/-!
# Reading tokens

A reader takes the tokens that remain and gives a tree with the tokens after it, or refuses. A
refusal keeps the tokens at which it arose; how many they are tells the place in the text.
-/
namespace ScriptFacts

/-- Why reading stopped, with the tokens that remained there. -/
inductive Refusal
  /-- Statements or expressions are nested too deep. -/
  | tooDeep (rest : List Token)
  /-- The next token is not what the grammar asks for. -/
  | unexpected (expectation : Expectation) (rest : List Token)
deriving DecidableEq, Repr

/-- The tokens that remained. -/
def Refusal.rest : Refusal → List Token
  | tooDeep rest => rest
  | unexpected _ rest => rest

/-- What was wanted under a limit on nesting. -/
def Refusal.wanted (limit : Nat) : Refusal → Wanted
  | tooDeep _ => .nestingAtMost limit
  | unexpected expectation _ => .part expectation

/-- Takes the tokens that remain, and gives what it read with the tokens after it, or refuses. -/
abbrev Reader (α : Type) := List Token → Except Refusal (α × List Token)

/-- Passes over a mark, or refuses with the given expectation. -/
def expect (mark : Symbol) (expectation : Expectation) :
    List Token → Except Refusal (List Token)
  | [] => .error (.unexpected expectation [])
  | token :: rest =>
    if token = .symbol mark then .ok rest
    else .error (.unexpected expectation (token :: rest))

/-- Passes over a mark at a place that asks for nothing else. -/
def expectAt (mark : Symbol) (place : Place) : List Token → Except Refusal (List Token) :=
  expect mark (.symbol mark place)

theorem expect_eq_ok_iff {mark : Symbol} {expectation : Expectation} {tokens rest : List Token} :
    expect mark expectation tokens = .ok rest ↔ tokens = .symbol mark :: rest := by
  cases tokens with
  | nil => simp [expect]
  | cons token tokens =>
    by_cases h : token = .symbol mark <;> simp [expect, h]

end ScriptFacts
