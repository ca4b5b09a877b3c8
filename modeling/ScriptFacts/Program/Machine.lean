import ScriptFacts.Arena.Basic
import ScriptFacts.Token.Stream

/-!
# The parsing machine

A machine goes along the slots of a text: its tokens, and after them the end of the text, which is a
slot of its own. It knows its position, pushes nodes and counts how deep it is nested. Nothing in
its state keeps the position inside the text or the count inside its bounds, so a machine checks
what it is about to do, and halts where it would otherwise go wrong:

* where it looks at a slot that is not there,
* where the count of levels leaves the range of a machine word,
* where a root is not among the nodes,
* where the rounds that a loop or a recursion was given are used up.

Every look at a slot is recorded, with the depth at which it happened.
-/
namespace ScriptFacts

/-! ## Slots -/

/-- What stands at a position of a text: a token, or the end of the text. -/
structure Slot where
  token : Option Token
  location : Text.Location
deriving DecidableEq, Repr

/-- What an error says was found at a slot. -/
def Slot.found (slot : Slot) : Found :=
  match slot.token with
  | some token => .token token
  | none => .endOfFile

/-- The slots of a text. The last one is its end, and no other is. -/
def TokenStream.slots (stream : TokenStream) : Array Slot :=
  (stream.placed.map fun placed => (⟨some placed.token, placed.location⟩ : Slot)).toArray.push
    ⟨none, stream.finish⟩

/-! ## States -/

/-- Why a machine stopped without a result. -/
inductive Halt
  /-- The text is no script. -/
  | refused (error : SyntaxError)
  /-- There is no slot at the index that was looked at. -/
  | noSlot (index : Nat)
  /-- The count of levels would not fit into a machine word. -/
  | tooManyLevels
  /-- The count of levels would be less than zero. -/
  | tooFewLevels
  /-- The root is not among the nodes. -/
  | noRoot (root : Nat)
  /-- A loop or a recursion has used its rounds up. -/
  | outOfRounds
deriving DecidableEq, Repr

/-- A look at a slot: its index, and how many levels were open. -/
structure Look where
  index : Nat
  depth : Nat
deriving DecidableEq, Repr

/-- The state of a machine. -/
structure Parser where
  slots : Array Slot
  position : Nat
  arena : Arena
  /-- How many statements, expressions and operands of `not` are open. -/
  depth : Nat
  /-- How many of them may be. -/
  limit : Nat
  /-- All looks so far, the last one first. -/
  looks : List Look
deriving DecidableEq

/-- A machine before the first token of a text. -/
def Parser.start (limit : Nat) (stream : TokenStream) : Parser :=
  ⟨stream.slots, 0, .empty, 0, limit, []⟩

/-- A machine that stands at a slot of a text, with no more levels open than the limit, and that
stood so whenever it looked at a slot. -/
structure Parser.Sound (stream : TokenStream) (limit : Nat) (parser : Parser) : Prop where
  slots_eq : parser.slots = stream.slots
  limit_eq : parser.limit = limit
  position_lt : parser.position < stream.size
  depth_le : parser.depth ≤ limit
  looks : ∀ look ∈ parser.looks, look.index < stream.size ∧ look.depth ≤ limit

/-! ## Machines -/

/-- Goes from a state to another one with a result, or halts there. -/
def Machine (α : Type) := Parser → Except Halt α × Parser

namespace Machine

variable {α β : Type}

/-- Two machines, the second of which takes the result of the first. -/
def andThen (first : Machine α) (next : α → Machine β) : Machine β := fun parser =>
  match first parser with
  | (.ok value, parser) => next value parser
  | (.error halt, parser) => (.error halt, parser)

instance : Monad Machine where
  pure value := fun parser => (.ok value, parser)
  bind := andThen

/-- Halts. -/
def halt (reason : Halt) : Machine α := fun parser => (.error reason, parser)

/-! ## Looking -/

/-- What stands at an index, if anything does. -/
def lookAt? (index : Nat) : Machine (Option Slot) := fun parser =>
  (.ok parser.slots[index]?, { parser with looks := ⟨index, parser.depth⟩ :: parser.looks })

/-- What stands at an index. -/
def lookAt (index : Nat) : Machine Slot := do
  match ← lookAt? index with
  | some slot => return slot
  | none => halt (.noSlot index)

/-- The position. -/
def position : Machine Nat := fun parser => (.ok parser.position, parser)

/-- The slot that comes next. -/
def peek : Machine Slot := do
  lookAt (← position)

/-- The slot that comes so many slots after the next one, if the text goes so far. -/
def peekAhead (distance : Nat) : Machine (Option Slot) := do
  lookAt? ((← position) + distance)

/-- The slot that was passed last, or the first slot. -/
def previous : Machine Slot := do
  lookAt ((← position) - 1)

/-- Whether this token comes next. -/
def check (token : Token) : Machine Bool := do
  let slot ← peek
  return slot.token == some token

/-- Whether nothing but the end of the text comes next. -/
def isAtEnd : Machine Bool := do
  let slot ← peek
  return slot.token.isNone

/-- Refuses the text because of what comes next. -/
def refuse (wanted : Wanted) : Machine α := do
  let slot ← peek
  halt (.refused ⟨slot.location, wanted, slot.found⟩)

/-! ## Going on -/

/-- Moves the position by one. -/
def step : Machine Unit := fun parser =>
  (.ok (), { parser with position := parser.position + 1 })

/-- Passes the next slot, unless it is the end of the text. -/
def advance : Machine Slot := do
  if ← isAtEnd then previous
  else
    step
    previous

/-- Passes this token if it comes next, and tells whether it did. -/
def accept (token : Token) : Machine Bool := do
  if ← check token then
    let _ ← advance
    return true
  else return false

/-- Passes a mark, or refuses the text with the given expectation. -/
def demand (mark : Symbol) (expectation : Expectation) : Machine Unit := do
  if ← accept (.symbol mark) then return ()
  else refuse (.part expectation)

/-- Passes a mark at a place that asks for nothing else. -/
def demandAt (mark : Symbol) (place : Place) : Machine Unit :=
  demand mark (.symbol mark place)

/-- Passes a name. -/
def demandName (place : Place) : Machine String := do
  let slot ← peek
  match slot.token with
  | some (.name name) => do
    let _ ← advance
    return name
  | _ => refuse (.part (.name place))

/-! ## Nodes and levels -/

/-- Adds a node, and tells its handle. -/
def push (node : Node) : Machine Nat := fun parser =>
  (.ok (parser.arena.push node).1, { parser with arena := (parser.arena.push node).2 })

/-- Opens a level, if it fits into a machine word. -/
def openLevel : Machine Unit := fun parser =>
  if parser.depth + 1 < UInt64.size then (.ok (), { parser with depth := parser.depth + 1 })
  else (.error .tooManyLevels, parser)

/-- Closes a level after a machine, whether that has a result or has halted. -/
def closingLevel (inner : Machine α) : Machine α := fun parser =>
  match inner parser with
  | (result, parser) =>
    if 0 < parser.depth then (result, { parser with depth := parser.depth - 1 })
    else (.error .tooFewLevels, parser)

/-- Runs a machine one level deeper, unless the limit is reached. -/
def nested (inner : Machine α) : Machine α := fun parser =>
  if parser.limit ≤ parser.depth then refuse (.nestingAtMost parser.limit) parser
  else (do openLevel; closingLevel inner : Machine α) parser

/-- The program with a root among the nodes so far. -/
def finish (root : Nat) : Machine Ast := fun parser =>
  match parser.arena.withRoot? root with
  | some ast => (.ok ast, parser)
  | none => (.error (.noRoot root), parser)

/-! ## Machines that do not go wrong -/

/-- From a sound state a machine comes to a sound state with as many levels open. It has a result
there, and has passed a token on the way, or it refuses the text. -/
def Safe (stream : TokenStream) (limit : Nat) (machine : Machine α) : Prop :=
  ∀ parser : Parser, parser.Sound stream limit →
    ∃ after : Parser, after.Sound stream limit ∧ after.depth = parser.depth
      ∧ ((∃ value, machine parser = (.ok value, after) ∧ parser.position < after.position)
        ∨ ∃ error, machine parser = (.error (.refused error), after))

end Machine

end ScriptFacts
