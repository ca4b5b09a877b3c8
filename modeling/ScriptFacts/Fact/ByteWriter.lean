import ScriptFacts.Fact.Sink

/-!
# Writers

A writer is offered bytes and takes some of them, from the front, or it fails; how many it takes at
a time is its own affair. To write a text, what is left of it is offered again until all of it is
taken. A writer that took nothing of an offer would be asked forever, so that is a failure as well.
An offer that was interrupted before anything was taken is made again, and does not count.

Facts are written up to the first failure, each as its text and then the end of its line. What the
writer has taken before it failed is not taken back.

A bounded writer stores what it takes until it is full. Nothing else is asked of it: it may take all
that fits, or a byte at a time, or now this much and now that. A sink is one that takes all that
fits.
-/
namespace ScriptFacts

/-! ## Writing -/

/-- Why not all bytes were taken. -/
inductive WriteFault
  /-- Of an offer of bytes none was taken. -/
  | nothingTaken
  /-- The writer answered with an error. -/
  | refused (reason : String)
deriving DecidableEq, Repr

/-- Something that takes bytes. -/
structure ByteWriter where
  State : Type
  /-- Offers bytes: how many of them are taken, and the state after that. -/
  offer : List UInt8 → State → Except WriteFault Nat × State

namespace ByteWriter

variable (writer : ByteWriter)

/-- Goes from one state of a writer to another, and fails there or does not. -/
def Run := writer.State → Except WriteFault Unit × writer.State

variable {writer}

/-- Does nothing. -/
def Run.nothing : writer.Run := fun state => (.ok (), state)

/-- Two runs, the second of which is made if the first does not fail. -/
def Run.andThen (first second : writer.Run) : writer.Run := fun state =>
  match first state with
  | (.ok (), state) => second state
  | (.error fault, state) => (.error fault, state)

variable (writer)

/-- Offers bytes until all of them are taken. -/
def writeAll : List UInt8 → writer.Run
  | [] => .nothing
  | byte :: bytes => fun state =>
    match writer.offer (byte :: bytes) state with
    | (.error fault, state) => (.error fault, state)
    | (.ok 0, state) => (.error .nothingTaken, state)
    | (.ok (taken + 1), state) => writeAll (bytes.drop taken) state
termination_by bytes => bytes.length
decreasing_by
  simp only [List.length_drop, List.length_cons]
  omega

section

variable {writer} {byte : UInt8} {bytes : List UInt8} {state next : writer.State}

theorem writeAll_of_taken {taken : Nat}
    (h : writer.offer (byte :: bytes) state = (.ok (taken + 1), next)) :
    writer.writeAll (byte :: bytes) state = writer.writeAll (bytes.drop taken) next := by
  rw [writeAll]
  simp only [h]

theorem writeAll_of_none (h : writer.offer (byte :: bytes) state = (.ok 0, next)) :
    writer.writeAll (byte :: bytes) state = (.error .nothingTaken, next) := by
  rw [writeAll]
  simp only [h]

theorem writeAll_of_error {fault : WriteFault}
    (h : writer.offer (byte :: bytes) state = (.error fault, next)) :
    writer.writeAll (byte :: bytes) state = (.error fault, next) := by
  rw [writeAll]
  simp only [h]

end

/-- Writes a text. -/
def writeText (text : String) : writer.Run :=
  writer.writeAll text.toUTF8.data.toList

/-- Writes facts, one to a line. -/
def writeFacts (style : NameStyle) : List Fact → writer.Run
  | [] => .nothing
  | fact :: facts =>
    ((writer.writeText (fact.render style)).andThen (writer.writeText "\n")).andThen
      (writeFacts style facts)

end ByteWriter

/-- Writes a set of facts to a writer. -/
def FactSet.writeTo (style : NameStyle) (set : FactSet) (writer : ByteWriter) : writer.Run :=
  writer.writeFacts style set.toList

/-! ## Writers of bounded room -/

/-- A writer that stores what it takes. While it has room it takes something of every offer; once it
is full it takes nothing of any, whether or not it says so with an error. -/
structure BoundedWriter extends ByteWriter where
  /-- What is stored, in the order in which it was taken. -/
  stored : State → List UInt8
  /-- How many bytes there is room for. -/
  room : State → Nat
  offer_of_pos (state : State) (byte : UInt8) (bytes : List UInt8) : 0 < room state →
    ∃ taken next, offer (byte :: bytes) state = (.ok (taken + 1), next)
      ∧ stored next = stored state ++ (byte :: bytes).take (taken + 1)
      ∧ taken ≤ bytes.length ∧ room next + (taken + 1) = room state
  offer_of_full (state : State) (byte : UInt8) (bytes : List UInt8) : room state = 0 →
    ∃ answer next, offer (byte :: bytes) state = (answer, next)
      ∧ stored next = stored state ∧ ∀ taken, answer = .ok taken → taken = 0

/-- A sink as a writer: it takes as much of an offer as there is room for. -/
def Sink.writer : BoundedWriter where
  State := Sink
  offer bytes sink :=
    (.ok (min sink.room bytes.length),
      ⟨sink.stored ++ bytes.take sink.room, sink.room - bytes.length⟩)
  stored sink := sink.stored.toList
  room sink := sink.room
  offer_of_pos sink byte bytes h := by
    have htaken : min sink.room (byte :: bytes).length = min (sink.room - 1) bytes.length + 1 := by
      rw [List.length_cons]
      omega
    refine ⟨min (sink.room - 1) bytes.length, _,
      Prod.ext (congrArg Except.ok htaken) rfl, ?_, ?_, ?_⟩
    · rw [← htaken, ← List.take_eq_take_min]
      simp
    · exact Nat.min_le_right _ _
    · simp only [List.length_cons]
      omega
  offer_of_full sink byte bytes h := by
    refine ⟨_, _, rfl, ?_, fun taken htaken => ?_⟩
    · simp [h]
    · cases htaken
      rw [h, Nat.zero_min]

end ScriptFacts
