import ScriptFacts.Fact.Sink

/-!
# Writing piece by piece

Facts are written one after the other, each followed by the end of its line, and the room may run
out in the middle of any of them. The pieces come to the same as the whole: the sink is left as if
the rendered text had been put into it at once, filled to the same byte and with the same error.

* `Sink.put_append`: putting two pieces is putting both.
* `FactSet.write_eq`: writing a set of facts is putting its text.
-/
namespace ScriptFacts

namespace Sink

/-- Two pieces put one after the other are put as one. Where the first finds no room, nothing is
left for the second. -/
theorem put_append (sink : Sink) (first second : List UInt8) :
    (sink.put first >>= fun sink => sink.put second) = sink.put (first ++ second) := by
  have hstored : sink.stored ++ first.take sink.room ++ second.take (sink.room - first.length)
      = sink.stored ++ (first ++ second).take sink.room := by
    rw [List.take_append]
    apply Array.toList_inj.mp
    simp
  have hroom : sink.room - first.length - second.length
      = sink.room - (first ++ second).length := by
    rw [List.length_append]
    omega
  have hlength : (first ++ second).length = first.length + second.length := List.length_append
  unfold put
  by_cases hfirst : first.length ≤ sink.room
  · simp only [if_pos hfirst, bind, Except.bind, hstored, hroom]
    by_cases hsecond : second.length ≤ sink.room - first.length
    · rw [if_pos hsecond, if_pos (by omega)]
    · rw [if_neg hsecond, if_neg (by omega)]
  · -- The room that the first piece leaves is none, whether or not the second is tried.
    have hnone : sink.room - first.length = 0 := by omega
    have hnone' : sink.room - (first ++ second).length = 0 := by omega
    have hstored' : sink.stored ++ first.take sink.room
        = sink.stored ++ (first ++ second).take sink.room := by
      simpa [hnone] using hstored
    rw [if_neg hfirst, if_neg (by omega), hstored', hnone, hnone']
    rfl

theorem put_nil (sink : Sink) : sink.put [] = .ok sink := by
  unfold put
  simp

theorem putText_append (sink : Sink) (first second : String) :
    (sink.putText first >>= fun sink => sink.putText second) = sink.putText (first ++ second) := by
  have hbytes : (first ++ second).toUTF8.data.toList
      = first.toUTF8.data.toList ++ second.toUTF8.data.toList := by
    simp
  unfold putText
  rw [hbytes]
  exact sink.put_append _ _

/-- What finds room is stored as it is. -/
theorem putText_of_le {sink : Sink} {text : String} (h : text.utf8ByteSize ≤ sink.room) :
    sink.putText text
      = .ok ⟨sink.stored ++ text.toUTF8.data.toList, sink.room - text.utf8ByteSize⟩ := by
  have hlength : text.toUTF8.data.toList.length = text.utf8ByteSize := rfl
  unfold putText put
  rw [hlength, if_pos h, List.take_of_length_le (by omega)]

/-- The facts that are still to be written go on from any text that has been put. -/
theorem putText_putFacts (style : NameStyle) (facts : List Fact) (sink : Sink) (text : String) :
    (sink.putText text >>= putFacts style facts)
      = sink.putText (facts.foldl (fun text fact => text ++ fact.line style) text) := by
  induction facts generalizing text with
  | nil => exact bind_pure (sink.putText text)
  | cons fact facts ih =>
    calc (sink.putText text >>= putFacts style (fact :: facts))
        = ((sink.putText text >>= fun sink => sink.putText (fact.render style))
            >>= fun sink => sink.putText "\n") >>= putFacts style facts := by
          rw [bind_assoc, bind_assoc]
          rfl
      _ = sink.putText (text ++ fact.line style) >>= putFacts style facts := by
          rw [putText_append, putText_append, Fact.line, String.append_assoc]
      _ = _ := ih _

end Sink

/-- Writing facts is putting their rendered text. -/
theorem FactSet.write_eq (style : NameStyle) (set : FactSet) (sink : Sink) :
    set.write style sink = sink.putText (set.render style) := by
  have hempty : sink.putText "" = .ok sink := sink.put_nil
  have hwrite := sink.putText_putFacts style set.toList ""
  rw [hempty] at hwrite
  rw [FactSet.render, ← Array.foldl_toList]
  exact hwrite

end ScriptFacts
