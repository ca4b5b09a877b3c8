import ScriptFacts.Fact.Export

/-!
# The export as a machine

The export of a program step by step, with a stack of errands that know nothing of levels. It looks
up every handle and counts the arguments of every fact before the fact is made, and it breaks off
where a handle leads nowhere, where a fact would have too many arguments or too few, and where the
rounds that it was given are used up.
-/
namespace ScriptFacts

/-- Something that remains to be exported. -/
inductive Errand
  /-- The node at a handle. -/
  | node (handle : Nat)
  /-- The list that goes on at a cell with these items. -/
  | list (cell : Nat) (items : List Nat)
deriving DecidableEq, Repr

/-- Why an export broke off. -/
inductive Breakdown
  /-- The handle leads nowhere. -/
  | noNode (handle : Nat)
  /-- These are not as many arguments as the relation takes. -/
  | badArity (relation : Relation) (args : List String)
  /-- The rounds are used up. -/
  | outOfRounds
deriving DecidableEq, Repr

namespace Errand

/-- The arguments and the errands of fields, numbered from left to right. -/
def gather : List (Field Nat) → Numbering → (List String × List Errand) × Numbering
  | [], numbering => (([], []), numbering)
  | .digits text :: fields, numbering =>
    let ((args, errands), numbering) := gather fields numbering
    ((text :: args, errands), numbering)
  | .text text :: fields, numbering =>
    let ((args, errands), numbering) := gather fields numbering
    ((text :: args, errands), numbering)
  | .child handle :: fields, numbering =>
    let (number, numbering) := numbering.node handle
    let ((args, errands), numbering) := gather fields numbering
    ((number.repr :: args, .node handle :: errands), numbering)
  | .children handles :: fields, numbering =>
    let (cell, numbering) := numbering.cell
    let ((args, errands), numbering) := gather fields numbering
    ((cell.repr :: args, .list cell handles :: errands), numbering)

/-- Adds a fact with these arguments. -/
def emit (relation : Relation) (args : List String) (numbering : Numbering) (facts : FactSet) :
    Except Breakdown Progress :=
  match Fact.ofArgs? relation args with
  | some fact => .ok ⟨numbering, facts.push fact⟩
  | none => .error (.badArity relation args)

/-- Does the first part of an errand, and tells what remains of it. -/
def step (arena : Arena) : Errand → Progress → Except Breakdown (List Errand × Progress)
  | node handle, progress =>
    match arena.get? handle with
    | none => .error (.noNode handle)
    | some found => do
      let (number, numbering) := progress.numbering.node handle
      let ((args, errands), numbering) := gather found.fields numbering
      let progress ← emit (.node found.kind) (number.repr :: args) numbering progress.facts
      .ok (errands, progress)
  | list cell [], progress => do
    let progress ← emit .empty [cell.repr] progress.numbering progress.facts
    .ok ([], progress)
  | list cell (first :: rest), progress => do
    let (element, numbering) := progress.numbering.node first
    let (tail, numbering) := numbering.cell
    let progress ← emit .elem [cell.repr, element.repr, tail.repr] numbering progress.facts
    .ok ([.node first, .list tail rest], progress)

/-- Runs errands off a stack. -/
def run (arena : Arena) : (rounds : Nat) → List Errand → Progress → Except Breakdown Progress
  | _, [], progress => .ok progress
  | 0, _ :: _, _ => .error .outOfRounds
  | rounds + 1, errand :: stack, progress => do
    let (errands, progress) ← errand.step arena progress
    run arena rounds (errands ++ stack) progress

end Errand

/-- The facts of a program, exported in so many rounds. -/
def Ast.exportFacts (rounds : Nat) (ast : Ast) : Except Breakdown FactSet := do
  let progress ← Errand.run ast.arena rounds [.node ast.root] .start
  .ok progress.facts

end ScriptFacts
