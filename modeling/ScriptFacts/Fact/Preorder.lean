import ScriptFacts.Fact.Export

/-!
# Export by recursion

The order of an export, said by recursion on the program instead of a stack of tasks: a node comes
first, then its children in field order, each with all that lies below it.
-/
namespace ScriptFacts.Progress

/-- Exports a list that goes on at a cell, each item by `item`. -/
def preorderList (item : Nat → Progress → Option Progress) :
    (cell : Nat) → List Nat → Progress → Option Progress
  | cell, [], progress => some (progress.addEnd cell)
  | cell, handle :: handles, progress => do
    let (next, progress) := progress.addItem cell handle
    let progress ← item handle progress
    preorderList item next handles progress

/-- Exports what a task names, each child by `child`. -/
def preorderTask (child : Nat → Progress → Option Progress) :
    Task → Progress → Option Progress
  | .node _ handle, progress => child handle progress
  | .list _ cell handles, progress => preorderList child cell handles progress

/-- Exports several tasks, one after the other. -/
def preorderTasks (child : Nat → Progress → Option Progress) :
    List Task → Progress → Option Progress
  | [], progress => some progress
  | task :: tasks, progress => do
    let progress ← preorderTask child task progress
    preorderTasks child tasks progress

/-- Exports a node with all that lies below it, no deeper than `levels`. -/
def preorder (arena : Arena) : (levels : Nat) → Nat → Progress → Option Progress
  | 0, _, _ => none
  | levels + 1, handle, progress => do
    let node ← arena.get? handle
    let (tasks, progress) := progress.addNode levels handle node
    preorderTasks (preorder arena levels) tasks progress

end ScriptFacts.Progress
