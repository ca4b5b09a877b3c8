import ScriptFacts.Fact.ByteWriter
import ScriptFacts.Proofs.Fact.Writing

/-!
# Writing as far as there is room

Whatever a bounded writer takes at a time, the outcome of writing is the same: it ends up with as
much of the bytes as there was room for, and it has failed if that is not all of them. `Stores` says
so of one outcome, and also how much room is left where nothing failed, so that writing can go on
from there. It holds of one text by recursion on what is left of it after each offer, and of facts
because their pieces are stored one after the other.

* `BoundedWriter.Stores.andThen`: two runs store one after the other.
* `BoundedWriter.stores_writeAll`, `BoundedWriter.stores_writeTo`: a text, and a set of facts.
* `FactSet.writeTo_sink`: writing to a sink is writing to it as a writer.
* `FactSet.writeTo_bounded`: what is stored is the beginning of the rendered text, cut at the limit.
-/
namespace ScriptFacts

namespace BoundedWriter

variable {writer : BoundedWriter} {state next : writer.State} {front bytes : List UInt8}
  {outcome : Except WriteFault Unit × writer.State}

/-- The outcome of writing bytes in a state: they are stored as far as there was room, and there is
no failure exactly if there was room for them all. -/
structure Stores (writer : BoundedWriter) (state : writer.State) (bytes : List UInt8)
    (outcome : Except WriteFault Unit × writer.State) : Prop where
  stored : writer.stored outcome.2 = writer.stored state ++ bytes.take (writer.room state)
  ok_iff : outcome.1 = .ok () ↔ bytes.length ≤ writer.room state
  room : outcome.1 = .ok () → writer.room outcome.2 + bytes.length = writer.room state

/-- Bytes that are stored already may be counted among those to be written. -/
theorem Stores.shift (hstored : writer.stored next = writer.stored state ++ front)
    (hroom : writer.room next + front.length = writer.room state)
    (h : writer.Stores next bytes outcome) : writer.Stores state (front ++ bytes) outcome where
  stored := by
    rw [h.stored, hstored, ← hroom, Nat.add_comm, List.take_length_add_append, List.append_assoc]
  ok_iff := by
    rw [h.ok_iff, List.length_append]
    omega
  room hok := by
    have := h.room hok
    rw [List.length_append]
    omega

/-- A writer that is full fails, and nothing more is stored. -/
theorem Stores.of_full (hroom : writer.room state = 0) (hbytes : bytes ≠ [])
    (hstored : writer.stored next = writer.stored state) (fault : WriteFault) :
    writer.Stores state bytes (.error fault, next) where
  stored := by simp [hroom, hstored]
  ok_iff := by simp [hroom, hbytes]
  room h := by cases h

theorem stores_nothing (state : writer.State) :
    writer.Stores state [] (ByteWriter.Run.nothing state) :=
  ⟨by simp [ByteWriter.Run.nothing], by simp [ByteWriter.Run.nothing], fun _ => rfl⟩

/-- What two runs store one after the other. Where the first fails, there is no room for anything
of the second. -/
theorem Stores.andThen {first second : writer.Run}
    (hfirst : writer.Stores state front (first state))
    (hsecond : ∀ next, writer.Stores next bytes (second next)) :
    writer.Stores state (front ++ bytes) (first.andThen second state) := by
  unfold ByteWriter.Run.andThen
  generalize first state = outcome at hfirst
  obtain ⟨answer, next⟩ := outcome
  cases answer with
  | ok done =>
    have hfits : front.length ≤ writer.room state := hfirst.ok_iff.mp rfl
    refine Stores.shift ?_ (hfirst.room rfl) (hsecond next)
    have hstored := hfirst.stored
    rwa [List.take_of_length_le hfits] at hstored
  | error fault =>
    have hover : ¬ front.length ≤ writer.room state := fun hfits => by
      cases hfirst.ok_iff.mpr hfits
    refine ⟨?_, ?_, fun hok => by cases hok⟩
    · rw [List.take_append_of_le_length (by omega)]
      exact hfirst.stored
    · refine iff_of_false (fun hok => by cases hok) ?_
      rw [List.length_append]
      omega

/-- A text is stored as far as there is room. The recursion is on what is left of it after each
offer; the room decides which kind of answer there is. -/
theorem stores_writeAll (bytes : List UInt8) (state : writer.State) :
    writer.Stores state bytes (writer.writeAll bytes state) := by
  match bytes with
  | [] =>
    rw [ByteWriter.writeAll]
    exact stores_nothing state
  | byte :: bytes =>
    by_cases hroom : 0 < writer.room state
    · obtain ⟨taken, next, hoffer, hstored, hle, hleft⟩ :=
        writer.offer_of_pos state byte bytes hroom
      have hcut : (byte :: bytes).take (taken + 1) ++ bytes.drop taken = byte :: bytes :=
        List.take_append_drop (taken + 1) (byte :: bytes)
      have hlength : ((byte :: bytes).take (taken + 1)).length = taken + 1 := by
        rw [List.length_take, List.length_cons]
        omega
      have hrest := Stores.shift hstored (by rw [hlength, hleft])
        (stores_writeAll (bytes.drop taken) next)
      rwa [hcut, ← ByteWriter.writeAll_of_taken hoffer] at hrest
    · have hfull : writer.room state = 0 := by omega
      obtain ⟨answer, next, hoffer, hstored, hnone⟩ := writer.offer_of_full state byte bytes hfull
      have hfails := Stores.of_full hfull (List.cons_ne_nil byte bytes) hstored
      cases answer with
      | error fault =>
        rw [ByteWriter.writeAll_of_error hoffer]
        exact hfails fault
      | ok taken =>
        obtain rfl := hnone taken rfl
        rw [ByteWriter.writeAll_of_none hoffer]
        exact hfails .nothingTaken
termination_by bytes.length
decreasing_by
  simp only [List.length_drop, List.length_cons]
  omega

theorem stores_writeFacts (style : NameStyle) (facts : List Fact) (state : writer.State) :
    writer.Stores state (facts.flatMap fun fact => (fact.line style).toUTF8.data.toList)
      (writer.writeFacts style facts state) := by
  induction facts generalizing state with
  | nil => exact stores_nothing state
  | cons fact facts ih =>
    have hline : (fact.line style).toUTF8.data.toList
        = (fact.render style).toUTF8.data.toList ++ "\n".toUTF8.data.toList := by
      simp [Fact.line]
    rw [List.flatMap_cons, hline]
    exact ((stores_writeAll _ state).andThen fun next => stores_writeAll _ next).andThen
      fun next => ih next

/-- The bytes of a rendered set are those of its lines. -/
theorem bytes_render (style : NameStyle) (set : FactSet) :
    (set.render style).toUTF8.data.toList
      = set.toList.flatMap fun fact => (fact.line style).toUTF8.data.toList := by
  have hfrom (facts : List Fact) (text : String) :
      (facts.foldl (fun text fact => text ++ fact.line style) text).toUTF8.data.toList
        = text.toUTF8.data.toList
          ++ facts.flatMap fun fact => (fact.line style).toUTF8.data.toList := by
    induction facts generalizing text with
    | nil => simp
    | cons fact facts ih =>
      rw [List.foldl_cons, ih, List.flatMap_cons, ← List.append_assoc]
      simp
  rw [FactSet.render, ← Array.foldl_toList, hfrom]
  rfl

/-- A set of facts is stored as its rendered text is. -/
theorem stores_writeTo (style : NameStyle) (set : FactSet) (state : writer.State) :
    writer.Stores state (set.render style).toUTF8.data.toList
      (set.writeTo style writer.toByteWriter state) := by
  rw [bytes_render]
  exact stores_writeFacts style set.toList state

end BoundedWriter

/-! ## Sinks -/

namespace Sink

/-- Putting something into a sink as a run of the sink as a writer. -/
def told (put : Sink → Except Sink Sink) : writer.Run := fun sink =>
  match put sink with
  | .ok sink => (.ok (), sink)
  | .error sink => (.error .nothingTaken, sink)

theorem told_of_ok {put : Sink → Except Sink Sink} {sink next : Sink} (h : put sink = .ok next) :
    told put sink = (.ok (), next) := by
  simp only [told, h]
  rfl

theorem told_of_error {put : Sink → Except Sink Sink} {sink next : Sink}
    (h : put sink = .error next) : told put sink = (.error .nothingTaken, next) := by
  simp only [told, h]
  rfl

theorem told_bind (first second : Sink → Except Sink Sink) :
    told (fun sink => first sink >>= second) = (told first).andThen (told second) := by
  funext sink
  simp only [told, ByteWriter.Run.andThen]
  cases first sink <;> rfl

/-- What there is room for can be put. -/
theorem put_take (sink : Sink) (bytes : List UInt8) :
    sink.put (bytes.take sink.room)
      = .ok ⟨sink.stored ++ bytes.take sink.room, sink.room - bytes.length⟩ := by
  have hroom : sink.room - min sink.room bytes.length = sink.room - bytes.length := by omega
  unfold put
  rw [List.take_take, Nat.min_self, List.length_take, if_pos (Nat.min_le_left _ _), hroom]

/-- What a sink takes of an offer is put into it, and what is left is offered to what is left of its
room. -/
theorem writeAll_eq (bytes : List UInt8) (sink : Sink) :
    writer.writeAll bytes sink = told (fun sink => sink.put bytes) sink := by
  match bytes with
  | [] =>
    rw [ByteWriter.writeAll]
    simp only [told, put_nil]
    rfl
  | byte :: bytes =>
    have hoffer : writer.offer (byte :: bytes) sink = (.ok (min sink.room (byte :: bytes).length),
        ⟨sink.stored ++ (byte :: bytes).take sink.room, sink.room - (byte :: bytes).length⟩) := rfl
    by_cases hroom : 0 < sink.room
    · obtain ⟨taken, htaken⟩ : ∃ taken, min sink.room (byte :: bytes).length = taken + 1 :=
        Nat.exists_eq_succ_of_ne_zero (by rw [List.length_cons]; omega)
      have hcut : (byte :: bytes).take sink.room ++ bytes.drop taken = byte :: bytes := by
        rw [List.take_eq_take_min, htaken]
        exact List.take_append_drop (taken + 1) (byte :: bytes)
      have hput : sink.put (byte :: bytes)
          = Sink.put ⟨sink.stored ++ (byte :: bytes).take sink.room,
              sink.room - (byte :: bytes).length⟩ (bytes.drop taken) := by
        conv => lhs; rw [← hcut, ← put_append, put_take]
        rfl
      rw [htaken] at hoffer
      rw [ByteWriter.writeAll_of_taken hoffer, writeAll_eq (bytes.drop taken)]
      simp only [told, hput]
    · have hfull : sink.room = 0 := by omega
      rw [hfull, Nat.zero_min] at hoffer
      rw [ByteWriter.writeAll_of_none hoffer]
      simp [told, put, hfull]
termination_by bytes.length
decreasing_by
  simp only [List.length_drop, List.length_cons]
  omega

theorem writeFacts_eq (style : NameStyle) (facts : List Fact) :
    writer.writeFacts style facts = told (putFacts style facts) := by
  induction facts with
  | nil => rfl
  | cons fact facts ih =>
    have htext (text : String) :
        writer.writeText text = told (fun sink => sink.putText text) :=
      funext (writeAll_eq text.toUTF8.data.toList)
    calc writer.writeFacts style (fact :: facts)
        = ((writer.writeText (fact.render style)).andThen (writer.writeText "\n")).andThen
            (writer.writeFacts style facts) := rfl
      _ = told (fun sink => (sink.putText (fact.render style) >>= fun sink => sink.putText "\n")
            >>= putFacts style facts) := by
          rw [htext, htext, ih, ← told_bind, ← told_bind]
      _ = told (putFacts style (fact :: facts)) := by
          congr 1
          funext sink
          exact bind_assoc _ _ _

end Sink

/-- Writing to a sink is writing to it as to any writer. -/
theorem FactSet.writeTo_sink (style : NameStyle) (set : FactSet) :
    set.writeTo style Sink.writer.toByteWriter = Sink.told (set.write style) :=
  Sink.writeFacts_eq style set.toList

/-- Writing a set of facts to a writer of bounded room stores the first bytes of the rendered text:
all of them or as many as there is room for, and fails exactly if the text has more. It is so
however much the writer takes at a time, and wherever the cut falls: between a fact and the end of
its line, inside a character, at the very end. A sink of that room is filled with the same bytes. -/
theorem FactSet.writeTo_bounded (style : NameStyle) (set : FactSet) :
    let bytes := (set.render style).toUTF8.data.toList
    (∀ (writer : BoundedWriter) (state : writer.State),
      let outcome := set.writeTo style writer.toByteWriter state
      writer.stored outcome.2
          = writer.stored state ++ bytes.take (min (writer.room state) bytes.length)
        ∧ ((∃ fault, outcome.1 = .error fault) ↔ writer.room state < bytes.length))
      ∧ ∀ limit, ∃ final : Sink, final.stored.toList = bytes.take (min limit bytes.length)
        ∧ set.write style (.ofRoom limit)
          = if limit < bytes.length then .error final else .ok final := by
  intro bytes
  refine ⟨fun writer state => ?_, fun limit => ?_⟩
  · have hstores := writer.stores_writeTo style set state
    refine ⟨by rw [← List.take_eq_take_min]; exact hstores.stored, ?_⟩
    have hfails := not_congr hstores.ok_iff
    rw [Nat.not_le] at hfails
    rw [← hfails]
    cases (set.writeTo style writer.toByteWriter state).1 <;> simp
  · have hstores := Sink.writer.stores_writeTo style set (.ofRoom limit)
    rw [FactSet.writeTo_sink] at hstores
    cases hwrite : set.write style (.ofRoom limit) with
    | ok final =>
      rw [Sink.told_of_ok hwrite] at hstores
      have hfits : bytes.length ≤ limit := hstores.ok_iff.mp rfl
      refine ⟨final, by rw [← List.take_eq_take_min]; exact hstores.stored, ?_⟩
      rw [if_neg (Nat.not_lt.mpr hfits)]
    | error final =>
      rw [Sink.told_of_error hwrite] at hstores
      have hover : ¬ bytes.length ≤ limit := fun hfits => by cases hstores.ok_iff.mpr hfits
      refine ⟨final, by rw [← List.take_eq_take_min]; exact hstores.stored, ?_⟩
      rw [if_pos (Nat.lt_of_not_le hover)]

/-- The cut falls between the two bytes of a character. -/
example :
    (match (FactSet.empty.push ⟨.node .var, ["1", "é"], rfl⟩).write .bare (.ofRoom 10) with
      | .ok _ => none
      | .error sink => some sink) = some ⟨"Var('1','".toUTF8.data.push 0xC3, 0⟩ := by
  decide +kernel

end ScriptFacts
