import Std.Data.TreeMap

/-!
# Identifiers

Nodes and list cells are numbered from 1 by one counter. A node keeps its number however often it
is asked for; each list cell takes a new one. Whoever uses a numbering asks for one thing after the
other, and the transcript keeps what was asked with what was answered.

* `Numbering.map_fst_transcript`: every request is answered.
* `Numbering.getElem?_transcript`, `Numbering.take_transcript`: answers depend on earlier requests
  only.
-/
namespace ScriptFacts

/-- The numbers given out so far. -/
structure Numbering where
  /-- How many numbers were given out. -/
  issued : Nat
  /-- The numbers of nodes, by handle. -/
  known : Std.TreeMap Nat Nat

namespace Numbering

/-- No numbers given out. -/
def fresh : Numbering := ⟨0, ∅⟩

/-- The number of the node at a handle, a new one if it has none yet. -/
def node (numbering : Numbering) (handle : Nat) : Nat × Numbering :=
  match numbering.known[handle]? with
  | some number => (number, numbering)
  | none =>
    let number := numbering.issued + 1
    (number, ⟨number, numbering.known.insert handle number⟩)

/-- A new number for a list cell. -/
def cell (numbering : Numbering) : Nat × Numbering :=
  let number := numbering.issued + 1
  (number, { numbering with issued := number })

/-! ## Requests -/

/-- What a numbering is asked for. -/
inductive Request
  /-- The number of the node at a handle. -/
  | node (handle : Nat)
  /-- A number for a list cell. -/
  | cell
  /-- How many numbers were given out. -/
  | count
deriving DecidableEq, Repr

/-- The handle of the node that is asked for. -/
def Request.handle? : Request → Option Nat
  | node handle => some handle
  | cell | count => none

/-- The answer to a request. -/
def answer (numbering : Numbering) : Request → Nat × Numbering
  | .node handle => numbering.node handle
  | .cell => numbering.cell
  | .count => (numbering.issued, numbering)

/-- Requests with their answers, one after the other. -/
def transcript : List Request → Numbering → List (Request × Nat) × Numbering
  | [], numbering => ([], numbering)
  | request :: requests, numbering =>
    let (number, numbering) := numbering.answer request
    let (entries, numbering) := transcript requests numbering
    ((request, number) :: entries, numbering)

theorem map_fst_transcript (requests : List Request) (numbering : Numbering) :
    (transcript requests numbering).1.map Prod.fst = requests := by
  induction requests generalizing numbering with
  | nil => rfl
  | cons request requests ih => simp [transcript, ih]

theorem take_transcript (requests : List Request) (numbering : Numbering) (count : Nat) :
    (transcript requests numbering).1.take count
      = (transcript (requests.take count) numbering).1 := by
  induction requests generalizing numbering count with
  | nil => simp [transcript]
  | cons request requests ih =>
    cases count with
    | zero => simp [transcript]
    | succ count => simp [transcript, ih]

/-- The answer to a request is given by the numbering that the requests before it leave. -/
theorem getElem?_transcript (requests : List Request) (numbering : Numbering) (index : Nat) :
    (transcript requests numbering).1[index]? = requests[index]?.map fun request =>
      (request, ((transcript (requests.take index) numbering).2.answer request).1) := by
  induction requests generalizing numbering index with
  | nil => simp [transcript]
  | cons request requests ih =>
    cases index with
    | zero => simp [transcript]
    | succ index => simp [transcript, ih]

end Numbering

end ScriptFacts
