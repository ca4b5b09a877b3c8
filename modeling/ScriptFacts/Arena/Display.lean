import ScriptFacts.Arena.Reach

/-!
# Writing on the way down

The written form of a program put together piece by piece: the text grows while nodes are looked up,
a node before its children and one child after the other. Writing breaks off at the first handle
that leads nowhere, and where it would have to go further down than it may.

A visit looks up the same handles in the same order and writes nothing.
-/
namespace ScriptFacts

/-- Why the way through a program broke off. -/
inductive Interruption
  /-- The handle leads nowhere. -/
  | noNode (handle : Nat)
  /-- There are no levels left to go down. -/
  | outOfLevels
deriving DecidableEq, Repr

/-- The node at a handle. -/
def Arena.lookUp (arena : Arena) (handle : Nat) : Except Interruption Node :=
  match arena.get? handle with
  | none => .error (.noNode handle)
  | some node => .ok node

/-! ## Writing -/

/-- Takes the text so far, and adds to it. -/
abbrev Writer := String → Except Interruption String

/-- Writes items with commas between them, and one more comma if something stands before them. -/
def Writer.separate {α : Type} (write : α → Writer) : (first : Bool) → List α → Writer
  | _, [], soFar => .ok soFar
  | first, item :: items, soFar => do
    let soFar ← write item (if first then soFar else soFar ++ ",")
    separate write false items soFar

/-- Writes a field, each child by `child`. -/
def Field.write (child : Nat → Writer) : Field Nat → Writer
  | .digits written, soFar => .ok (soFar ++ written)
  | .text written, soFar => .ok (soFar ++ "'" ++ written ++ "'")
  | .child handle, soFar => child handle soFar
  | .children handles, soFar => do
    let soFar ← Writer.separate child true handles (soFar ++ "[")
    .ok (soFar ++ "]")

/-- Writes the tree below a handle, if it is no deeper than `levels`. -/
def Arena.write (arena : Arena) : (levels : Nat) → Nat → Writer
  | 0, _, _ => .error .outOfLevels
  | levels + 1, handle, soFar => do
    let node ← arena.lookUp handle
    let soFar ← Writer.separate (Field.write (arena.write levels)) true node.fields
      (soFar ++ node.kind.name ++ "(")
    .ok (soFar ++ ")")

/-- The written form of the tree below a handle, written with so many levels. -/
def Ast.display (levels : Nat) (ast : Ast) (handle : Nat) : Except Interruption String :=
  ast.arena.write levels handle ""

/-! ## Visiting -/

/-- Visits one item after the other. -/
def visitAll {α : Type} (visit : α → Except Interruption Unit) : List α → Except Interruption Unit
  | [] => .ok ()
  | item :: items => do
    visit item
    visitAll visit items

/-- Looks up all handles below a handle, a node before its children. -/
def Arena.visit (arena : Arena) : (levels : Nat) → Nat → Except Interruption Unit
  | 0, _ => .error .outOfLevels
  | levels + 1, handle => do
    let node ← arena.lookUp handle
    visitAll (arena.visit levels) node.children

end ScriptFacts
