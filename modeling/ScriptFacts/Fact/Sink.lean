import ScriptFacts.Fact.Basic

/-!
# Writing into limited room

A sink takes bytes until its room is used up. Facts are written to it one after the other, each
with the end of its line, and writing stops at the first byte that finds no room.
-/
namespace ScriptFacts

/-- Bytes taken in, and the room that is left. -/
structure Sink where
  stored : Array UInt8
  room : Nat
deriving DecidableEq, Repr

namespace Sink

/-- An empty sink. -/
def ofRoom (room : Nat) : Sink := ⟨#[], room⟩

/-- Takes in bytes; the sink comes back as an error, filled, if there are too many. -/
def put (sink : Sink) (bytes : List UInt8) : Except Sink Sink :=
  let after : Sink := ⟨sink.stored ++ bytes.take sink.room, sink.room - bytes.length⟩
  if bytes.length ≤ sink.room then .ok after else .error after

/-- Takes in a text. -/
def putText (sink : Sink) (text : String) : Except Sink Sink :=
  sink.put text.toUTF8.data.toList

/-- Takes in facts, one to a line. -/
def putFacts (style : NameStyle) : List Fact → Sink → Except Sink Sink
  | [], sink => .ok sink
  | fact :: facts, sink => do
    let sink ← sink.putText (fact.render style)
    let sink ← sink.putText "\n"
    putFacts style facts sink

end Sink

/-- Writes a set of facts into a sink. -/
def FactSet.write (style : NameStyle) (set : FactSet) (sink : Sink) : Except Sink Sink :=
  Sink.putFacts style set.toList sink

end ScriptFacts
