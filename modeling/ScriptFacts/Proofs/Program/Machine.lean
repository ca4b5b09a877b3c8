import ScriptFacts.Program.ArenaReader
import ScriptFacts.Program.Machine

/-!
# Machines that keep to a text

A machine in a text stands at one of its slots, with no more levels open than the limit, and so it
was whenever it looked at a slot (`Parser.At`). As long as this holds, no look goes wrong, and what
a look finds is what a reader of the remaining tokens finds.

What a builder does to the tokens that remain is compared with what a machine does in such a state
(`Follows`): the same result with the same nodes and the same tokens to come, or the same refusal,
and as many levels open as before. The parts of a machine follow the parts of a builder.

* `Parser.At.position_lt`: the position is that of a slot.
* `Follows.bind`, `Follows.demand`, `Follows.accept`, `Follows.check`: one part after the other.
* `Simulates.nested`: one level deeper and back, also after a refusal.
* `Safe.of_simulates`: what follows a builder does not go wrong.
-/
namespace ScriptFacts

variable {α β γ δ : Type} {stream : TokenStream} {limit depth : Nat}

/-! ## Slots -/

theorem TokenStream.getElem?_slots {passed after : List Placed} (finish : Text.Location) :
    (TokenStream.slots ⟨passed ++ after, finish⟩)[passed.length]?
      = some (match after with
        | [] => ⟨none, finish⟩
        | next :: _ => ⟨some next.token, next.location⟩) := by
  unfold TokenStream.slots
  cases after <;> simp

theorem TokenStream.size_slots (stream : TokenStream) : stream.slots.size = stream.size := by
  simp [slots, size]

theorem TokenStream.size_eq (stream : TokenStream) : stream.size = stream.tokens.length + 1 := by
  simp [size, tokens]

/-! ## Positions -/

/-- A machine in a text, with these nodes so far and these tokens still to come. Its position says
what is still to come, no more levels are open than the limit, and no look went outside. -/
structure Parser.At (stream : TokenStream) (limit depth : Nat) (arena : Arena)
    (tokens : List Token) (parser : Parser) : Prop where
  slots_eq : parser.slots = stream.slots
  limit_eq : parser.limit = limit
  depth_eq : parser.depth = depth
  depth_le : depth ≤ limit
  arena_eq : parser.arena = arena
  remains : ∃ passed, stream.tokens = passed ++ tokens ∧ passed.length = parser.position
  looks : ∀ look ∈ parser.looks, look.index < stream.size ∧ look.depth ≤ limit

theorem Parser.at_start (limit : Nat) (stream : TokenStream) :
    Parser.At stream limit 0 .empty stream.tokens (.start limit stream) where
  slots_eq := rfl
  limit_eq := rfl
  depth_eq := rfl
  depth_le := Nat.zero_le limit
  arena_eq := rfl
  remains := ⟨[], rfl, rfl⟩
  looks := by simp [Parser.start]

namespace Parser.At

variable {arena : Arena} {tokens : List Token} {parser : Parser}

/-- So many slots have been passed, and the end of the text is never passed. -/
theorem position_eq (h : At stream limit depth arena tokens parser) :
    parser.position + tokens.length + 1 = stream.size := by
  obtain ⟨passed, hpassed, hposition⟩ := h.remains
  have hlength := congrArg List.length hpassed
  rw [List.length_append] at hlength
  have hsize := stream.size_eq
  omega

theorem position_lt (h : At stream limit depth arena tokens parser) :
    parser.position < stream.size := by
  have := h.position_eq
  omega

/-- The slot that comes next is that of the next token, or the end. -/
theorem exists_slot (h : At stream limit depth arena tokens parser) :
    ∃ slot, stream.slots[parser.position]? = some slot ∧ slot.token = tokens.head?
      ∧ (slot.location, slot.found) = stream.lookAt tokens.length := by
  obtain ⟨passed, hpassed, hposition⟩ := h.remains
  obtain ⟨placed, finish⟩ := stream
  obtain ⟨before, after, rfl, rfl, rfl⟩ := List.map_eq_append_iff.mp hpassed
  rw [← hposition, List.length_map, TokenStream.getElem?_slots]
  refine ⟨_, rfl, ?_⟩
  cases after <;> simp [TokenStream.lookAt, Slot.found]

theorem sound (h : At stream limit depth arena tokens parser) : parser.Sound stream limit where
  slots_eq := h.slots_eq
  limit_eq := h.limit_eq
  position_lt := h.position_lt
  depth_le := h.depth_eq ▸ h.depth_le
  looks := h.looks

end Parser.At

/-- The position of a sound state tells which tokens are still to come. -/
theorem Parser.Sound.exists_at {parser : Parser} (h : parser.Sound stream limit) :
    ∃ tokens, parser.At stream limit parser.depth parser.arena tokens := by
  refine ⟨stream.tokens.drop parser.position, ⟨h.slots_eq, h.limit_eq, rfl, h.depth_le, rfl, ?_,
    h.looks⟩⟩
  refine ⟨stream.tokens.take parser.position, (List.take_append_drop _ _).symm, ?_⟩
  have hlt := h.position_lt
  have hsize := stream.size_eq
  rw [List.length_take]
  omega

namespace Machine

/-! ## Looking and going on -/

/-- A run comes to a result, with these nodes and with these tokens still to come. -/
def Yields (stream : TokenStream) (limit depth : Nat) (arena : Arena) (rest : List Token)
    (value : α) (run : Except Halt α × Parser) : Prop :=
  ∃ parser, run = (.ok value, parser) ∧ parser.At stream limit depth arena rest

/-- The same with some result. -/
def Passes (stream : TokenStream) (limit depth : Nat) (arena : Arena) (rest : List Token)
    (run : Except Halt α × Parser) : Prop :=
  ∃ value, Yields stream limit depth arena rest value run

section Looking

variable {arena : Arena} {tokens rest : List Token} {parser : Parser}

theorem Yields.pure (h : parser.At stream limit depth arena tokens) (value : α) :
    Yields stream limit depth arena tokens value ((Pure.pure value : Machine α) parser) :=
  ⟨parser, rfl, h⟩

/-- What goes on after a result goes on from there. -/
theorem Yields.bind {value : α} {m : Machine α} {k : α → Machine β}
    {Goal : Except Halt β × Parser → Prop}
    (h : Yields stream limit depth arena rest value (m parser))
    (hk : ∀ next : Parser, next.At stream limit depth arena rest → Goal (k value next)) :
    Goal ((m >>= k) parser) := by
  obtain ⟨next, hrun, hnext⟩ := h
  have hbind : (m >>= k) parser = k value next := by
    show andThen m k parser = k value next
    rw [andThen, hrun]
  rw [hbind]
  exact hk next hnext

theorem Passes.bind {m : Machine α} {k : α → Machine β} {Goal : Except Halt β × Parser → Prop}
    (h : Passes stream limit depth arena rest (m parser))
    (hk : ∀ value (next : Parser), next.At stream limit depth arena rest → Goal (k value next)) :
    Goal ((m >>= k) parser) := by
  obtain ⟨value, hvalue⟩ := h
  exact hvalue.bind (hk value)

theorem yields_lookAt? (h : parser.At stream limit depth arena tokens) {index : Nat}
    (hindex : index < stream.size) :
    Yields stream limit depth arena tokens stream.slots[index]? (lookAt? index parser) := by
  refine ⟨{ parser with looks := ⟨index, parser.depth⟩ :: parser.looks }, ?_, ?_⟩
  · rw [lookAt?, h.slots_eq]
  · refine { h with looks := ?_ }
    intro look hlook
    rcases List.mem_cons.mp hlook with rfl | hlook
    · exact ⟨hindex, h.depth_eq ▸ h.depth_le⟩
    · exact h.looks look hlook

theorem yields_lookAt (h : parser.At stream limit depth arena tokens) {index : Nat} {slot : Slot}
    (hslot : stream.slots[index]? = some slot) :
    Yields stream limit depth arena tokens slot (lookAt index parser) := by
  have hindex : index < stream.size := by
    rw [← stream.size_slots]
    exact (Array.getElem?_eq_some_iff.mp hslot).1
  refine (yields_lookAt? h hindex).bind ?_
  intro next hnext
  rw [hslot]
  exact .pure hnext slot

/-- The next slot holds the next token, or is the end of the text. -/
theorem yields_peek (h : parser.At stream limit depth arena tokens) :
    ∃ slot : Slot, slot.token = tokens.head?
      ∧ (slot.location, slot.found) = stream.lookAt tokens.length
      ∧ Yields stream limit depth arena tokens slot (peek parser) := by
  obtain ⟨slot, hslot, htoken, hfound⟩ := h.exists_slot
  exact ⟨slot, htoken, hfound, yields_lookAt h hslot⟩

theorem passes_previous (h : parser.At stream limit depth arena tokens) :
    Passes stream limit depth arena tokens (previous parser) := by
  have hlt : parser.position - 1 < stream.slots.size := by
    have := h.position_lt
    rw [stream.size_slots]
    omega
  exact ⟨_, yields_lookAt h (Array.getElem?_eq_getElem hlt)⟩

theorem yields_isAtEnd (h : parser.At stream limit depth arena tokens) :
    Yields stream limit depth arena tokens tokens.isEmpty (isAtEnd parser) := by
  obtain ⟨slot, htoken, -, hpeek⟩ := yields_peek h
  refine hpeek.bind ?_
  intro next hnext
  have hempty : slot.token.isNone = tokens.isEmpty := by rw [htoken]; cases tokens <;> rfl
  rw [hempty]
  exact .pure hnext _

theorem yields_check (h : parser.At stream limit depth arena tokens) (token : Token) :
    Yields stream limit depth arena tokens (tokens.head? == some token) (check token parser) := by
  obtain ⟨slot, htoken, -, hpeek⟩ := yields_peek h
  refine hpeek.bind ?_
  intro next hnext
  rw [htoken]
  exact .pure hnext _

theorem yields_step {token : Token} (h : parser.At stream limit depth arena (token :: tokens)) :
    Yields stream limit depth arena tokens () (step parser) := by
  refine ⟨{ parser with position := parser.position + 1 }, rfl, { h with remains := ?_ }⟩
  obtain ⟨passed, hpassed, hposition⟩ := h.remains
  exact ⟨passed ++ [token], by simp [hpassed], by simp [hposition]⟩

/-- What comes after the next token is seen without passing it. -/
theorem yields_peekAhead {token : Token}
    (h : parser.At stream limit depth arena (token :: tokens)) :
    ∃ slot : Slot, slot.token = tokens.head?
      ∧ Yields stream limit depth arena (token :: tokens) (some slot) (peekAhead 1 parser) := by
  obtain ⟨next, hrun, hnext⟩ := yields_step h
  obtain ⟨-, rfl⟩ := Prod.mk.inj hrun
  obtain ⟨slot, hslot, htoken, -⟩ := hnext.exists_slot
  refine ⟨slot, htoken, ?_⟩
  rw [← hslot]
  exact yields_lookAt? h hnext.position_lt

/-- Passing the next slot passes the next token, and at the end of the text nothing. -/
theorem passes_advance (h : parser.At stream limit depth arena tokens) :
    Passes stream limit depth arena tokens.tail (advance parser) := by
  refine (yields_isAtEnd h).bind ?_
  intro next hnext
  cases tokens with
  | nil => exact passes_previous hnext
  | cons token rest =>
    refine (yields_step hnext).bind ?_
    intro after hafter
    exact passes_previous hafter

/-- A token is accepted where it comes next, and nothing is passed elsewhere. -/
theorem yields_accept (h : parser.At stream limit depth arena tokens) (token : Token) :
    Yields stream limit depth arena (if tokens.head? = some token then tokens.tail else tokens)
      (decide (tokens.head? = some token)) (accept token parser) := by
  refine (yields_check h token).bind ?_
  intro next hnext
  by_cases hhead : tokens.head? = some token
  · simp only [hhead, beq_self_eq_true, if_true, decide_true]
    refine (passes_advance hnext).bind ?_
    intro _ after hafter
    exact .pure hafter true
  · have hne : (tokens.head? == some token) = false := beq_eq_false_iff_ne.mpr hhead
    simp only [hhead, hne, Bool.false_eq_true, if_false, decide_false]
    exact .pure hnext false

/-- A name that comes next is passed. -/
theorem yields_demandName {name : String} {place : Place}
    (h : parser.At stream limit depth arena (.name name :: tokens)) :
    Yields stream limit depth arena tokens name (demandName place parser) := by
  obtain ⟨slot, htoken, -, hpeek⟩ := yields_peek h
  refine hpeek.bind ?_
  intro next hnext
  rw [htoken]
  refine (passes_advance hnext).bind ?_
  intro _ after hafter
  exact .pure hafter name

theorem yields_push (h : parser.At stream limit depth arena tokens) (node : Node) :
    Yields stream limit depth (arena.pushRoot node).arena tokens (arena.pushRoot node).root
      (push node parser) := by
  have harena := h.arena_eq
  subst harena
  exact ⟨{ parser with arena := (parser.arena.push node).2 }, rfl, { h with arena_eq := rfl }⟩

end Looking

/-! ## Following a builder -/

/-- A run comes to the result that a builder comes to, with its nodes and with the tokens that it
leaves, fewer than `size`; or it refuses what the builder refuses, at the same place. Either way
as many levels are open as before. -/
def Follows (stream : TokenStream) (limit depth : Nat) (view : β → α × Arena) (size : Nat)
    (built : Except Refusal (β × List Token)) (run : Except Halt α × Parser) : Prop :=
  match built with
  | .ok (value, rest) =>
    rest.length < size ∧ Yields stream limit depth (view value).2 rest (view value).1 run
  | .error refusal =>
    ∃ parser arena, run = (.error (.refused (stream.errorOf limit refusal)), parser)
      ∧ parser.At stream limit depth arena refusal.rest

/-- A root and the nodes. -/
def rooted (ast : Ast) : Nat × Arena := (ast.root, ast.arena)

namespace Follows

variable {view : β → α × Arena} {size : Nat} {arena : Arena} {tokens : List Token}
  {parser : Parser}

theorem mono {larger : Nat} {built : Except Refusal (β × List Token)}
    {run : Except Halt α × Parser} (h : Follows stream limit depth view size built run)
    (hle : size ≤ larger) : Follows stream limit depth view larger built run := by
  cases built with
  | error refusal => exact h
  | ok read => exact ⟨Nat.lt_of_lt_of_le h.1 hle, h.2⟩

theorem done {value : β} (h : parser.At stream limit depth (view value).2 tokens)
    (hsize : tokens.length < size) :
    Follows stream limit depth view size (.ok (value, tokens))
      ((pure (view value).1 : Machine α) parser) :=
  ⟨hsize, .pure h _⟩

/-- Nothing goes on after a refusal. -/
theorem error_bind {view' : δ → γ × Arena} {larger : Nat} {m : Machine α} {k : α → Machine γ}
    {refusal : Refusal} (h : Follows stream limit depth view size (.error refusal) (m parser)) :
    Follows stream limit depth view' larger (.error refusal) ((m >>= k) parser) := by
  obtain ⟨after, arena, hrun, hafter⟩ := h
  refine ⟨after, arena, ?_, hafter⟩
  show andThen m k parser = _
  rw [andThen, hrun]

/-- A part, and then the rest. -/
theorem bind {view' : δ → γ × Arena} {larger : Nat} {m : Machine α} {k : α → Machine γ}
    {built : Except Refusal (β × List Token)}
    {next : β × List Token → Except Refusal (δ × List Token)}
    (h : Follows stream limit depth view size built (m parser))
    (hk : ∀ value rest (after : Parser), after.At stream limit depth (view value).2 rest →
      rest.length < size →
      Follows stream limit depth view' larger (next (value, rest)) (k (view value).1 after)) :
    Follows stream limit depth view' larger (built >>= next) ((m >>= k) parser) := by
  cases built with
  | error refusal => exact h.error_bind
  | ok read =>
    obtain ⟨value, rest⟩ := read
    obtain ⟨hsize, hyields⟩ := h
    exact hyields.bind fun after hafter => hk value rest after hafter hsize

theorem refuse (h : parser.At stream limit depth arena tokens) {wanted : Wanted}
    {refusal : Refusal} (hrest : refusal.rest = tokens) (hwanted : refusal.wanted limit = wanted) :
    Follows stream limit depth view size (.error refusal)
      ((Machine.refuse wanted : Machine α) parser) := by
  obtain ⟨slot, -, hfound, hpeek⟩ := yields_peek h
  refine hpeek.bind ?_
  intro next hnext
  refine ⟨next, arena, ?_, hrest ▸ hnext⟩
  rw [TokenStream.errorOf, hrest, ← hfound, hwanted]
  rfl

/-- Anything but a name is refused where a name must come next. -/
theorem demandName {view : β → String × Arena} {place : Place}
    (h : parser.At stream limit depth arena tokens)
    (hname : ∀ name rest, tokens ≠ .name name :: rest) :
    Follows stream limit depth view size (.error (.unexpected (.name place) tokens))
      (Machine.demandName place parser) := by
  obtain ⟨slot, htoken, -, hpeek⟩ := yields_peek h
  refine hpeek.bind ?_
  intro next hnext
  rw [htoken]
  rcases tokens with _ | ⟨token, rest⟩
  · exact refuse hnext rfl rfl
  cases token with
  | name name => exact absurd rfl (hname name rest)
  | _ => exact refuse hnext rfl rfl

/-- What goes on depends on whether a token comes next. It is passed if so. -/
theorem accept {token : Token} {yes no : Machine α} {built : Except Refusal (β × List Token)}
    (h : parser.At stream limit depth arena tokens)
    (hyes : ∀ rest (next : Parser), tokens = token :: rest →
      next.At stream limit depth arena rest →
      Follows stream limit depth view size built (yes next))
    (hno : tokens.head? ≠ some token → ∀ next : Parser, next.At stream limit depth arena tokens →
      Follows stream limit depth view size built (no next)) :
    Follows stream limit depth view size built
      ((Machine.accept token >>= fun accepted => if accepted then yes else no) parser) := by
  refine (yields_accept h token).bind ?_
  intro next hnext
  by_cases hhead : tokens.head? = some token
  · obtain ⟨rest, rfl⟩ := List.head?_eq_some_iff.mp hhead
    rw [if_pos hhead, List.tail_cons] at hnext
    simpa using hyes rest next rfl hnext
  · rw [if_neg hhead] at hnext
    simpa [hhead] using hno hhead next hnext

/-- What goes on depends on whether a token comes next. It is not passed. -/
theorem check {token : Token} {yes no : Machine α} {built : Except Refusal (β × List Token)}
    (h : parser.At stream limit depth arena tokens)
    (hyes : tokens.head? = some token → ∀ next : Parser, next.At stream limit depth arena tokens →
      Follows stream limit depth view size built (yes next))
    (hno : tokens.head? ≠ some token → ∀ next : Parser, next.At stream limit depth arena tokens →
      Follows stream limit depth view size built (no next)) :
    Follows stream limit depth view size built
      ((Machine.check token >>= fun found => if found then yes else no) parser) := by
  refine (yields_check h token).bind ?_
  intro next hnext
  by_cases hhead : tokens.head? = some token
  · simpa [hhead] using hyes hhead next hnext
  · simpa [hhead] using hno hhead next hnext

/-- A mark that must come next. -/
theorem demand_run {mark : Symbol} {expectation : Expectation} {run : Except Refusal (List Token)}
    (h : parser.At stream limit depth arena tokens)
    (hrun : expect mark expectation tokens = run) :
    Follows stream limit depth (fun _ : Unit => ((), arena)) tokens.length
      (run.map fun rest => ((), rest)) (Machine.demand mark expectation parser) := by
  subst hrun
  refine .accept h ?_ ?_
  · rintro rest next rfl hnext
    rw [expect_eq_ok_iff.mpr rfl]
    exact done hnext (Nat.lt_succ_self _)
  · intro hhead next hnext
    have hbuilt : expect mark expectation tokens
        = .error (.unexpected expectation tokens) := by
      cases tokens with
      | nil => rfl
      | cons token rest => exact if_neg fun heq => hhead (congrArg some heq)
    rw [hbuilt]
    exact refuse hnext rfl rfl

/-- A mark that must come next, and then the rest. -/
theorem demand {mark : Symbol} {expectation : Expectation} {k : Unit → Machine α}
    {next : List Token → Except Refusal (β × List Token)}
    (h : parser.At stream limit depth arena tokens)
    (hk : ∀ rest (after : Parser), after.At stream limit depth arena rest →
      rest.length < tokens.length →
      Follows stream limit depth view size (next rest) (k () after)) :
    Follows stream limit depth view size (expect mark expectation tokens >>= next)
      ((Machine.demand mark expectation >>= k) parser) := by
  cases hrun : expect mark expectation tokens with
  | error refusal => exact (demand_run h hrun).error_bind
  | ok rest =>
    obtain ⟨hsize, hyields⟩ := demand_run h hrun
    exact hyields.bind fun after hafter => hk rest after hafter hsize

/-- A node on top. -/
theorem push (h : parser.At stream limit depth arena tokens) (hsize : tokens.length < size)
    (node : Node) :
    Follows stream limit depth rooted size (.ok (arena.pushRoot node, tokens))
      (Machine.push node parser) :=
  ⟨hsize, yields_push h node⟩

end Follows

/-! ## Levels -/

/-- A machine follows a builder, wherever in the text and whatever nodes there are, and passes at
least one token where it does not refuse. -/
def Simulates (stream : TokenStream) (limit depth : Nat) (view : β → α × Arena)
    (builder : Builder β) (machine : Machine α) : Prop :=
  ∀ (arena : Arena) (tokens : List Token) (parser : Parser),
    parser.At stream limit depth arena tokens →
      Follows stream limit depth view tokens.length (builder arena tokens) (machine parser)

/-- Closing a level leads back to the depth before it. -/
theorem closingLevel_eq {machine : Machine α} {result : Except Halt α} {parser after : Parser}
    {arena : Arena} {tokens : List Token} (hrun : machine parser = (result, after))
    (hafter : after.At stream limit (depth + 1) arena tokens) :
    ∃ closed : Parser, closingLevel machine parser = (result, closed)
      ∧ closed.At stream limit depth arena tokens := by
  refine ⟨{ after with depth := after.depth - 1 }, ?_, ?_⟩
  · have hpos : 0 < after.depth := by rw [hafter.depth_eq]; omega
    simp [closingLevel, hrun, hpos]
  · have hdepth_eq : after.depth - 1 = depth := by rw [hafter.depth_eq]; omega
    exact { hafter with depth_eq := hdepth_eq, depth_le := Nat.le_of_succ_le hafter.depth_le }

/-- What is followed one level deeper is followed from here, by builders that take one level of
their budget for it and refuse without one. -/
theorem Simulates.nested {view : β → α × Arena} {builder inner : Nat → Builder β}
    {machine : Machine α} (hzero : builder 0 = fun _ => Expr.refuseDepth)
    (hsucc : ∀ budget, builder (budget + 1) = inner budget) (hlimit : limit < UInt64.size)
    (h : depth < limit →
      Simulates stream limit (depth + 1) view (inner (limit - (depth + 1))) machine) :
    Simulates stream limit depth view (builder (limit - depth)) (Machine.nested machine) := by
  intro arena tokens parser hat
  by_cases hdepth : depth < limit
  · have hopen : Parser.At stream limit (depth + 1) arena tokens
        { parser with depth := depth + 1 } := { hat with depth_eq := rfl, depth_le := hdepth }
    have hrun : Machine.nested machine parser
        = closingLevel machine { parser with depth := depth + 1 } := by
      have hbelow : ¬ parser.limit ≤ parser.depth := by rw [hat.limit_eq, hat.depth_eq]; omega
      have hfits : parser.depth + 1 < UInt64.size := by rw [hat.depth_eq]; omega
      rw [Machine.nested, if_neg hbelow]
      show andThen openLevel _ parser = _
      rw [andThen, openLevel, if_pos hfits, hat.depth_eq]
    have hbudget : limit - depth = limit - (depth + 1) + 1 := by omega
    rw [hbudget, hsucc, hrun]
    have hfollows := h hdepth arena tokens _ hopen
    generalize inner (limit - (depth + 1)) arena tokens = built at hfollows ⊢
    cases built with
    | error refusal =>
      obtain ⟨after, arena, hafter_run, hafter⟩ := hfollows
      obtain ⟨closed, hclosed, hat_closed⟩ := closingLevel_eq hafter_run hafter
      exact ⟨closed, arena, hclosed, hat_closed⟩
    | ok read =>
      obtain ⟨hsize, after, hafter_run, hafter⟩ := hfollows
      obtain ⟨closed, hclosed, hat_closed⟩ := closingLevel_eq hafter_run hafter
      exact ⟨hsize, closed, hclosed, hat_closed⟩
  · have hrun : Machine.nested machine parser = Machine.refuse (.nestingAtMost limit) parser := by
      rw [Machine.nested, hat.limit_eq, hat.depth_eq, if_pos (Nat.not_lt.mp hdepth)]
    have hbudget : limit - depth = 0 := by omega
    rw [hbudget, hzero, hrun]
    exact .refuse hat rfl rfl

/-! ## Sound states -/

/-- A machine that follows a builder at every depth does not go wrong. -/
theorem Safe.of_simulates {view : β → α × Arena} {builder : Nat → Builder β} {machine : Machine α}
    (h : ∀ depth, Simulates stream limit depth view (builder depth) machine) :
    Safe stream limit machine := by
  intro parser hsound
  obtain ⟨tokens, hat⟩ := hsound.exists_at
  have hfollows := h parser.depth parser.arena tokens parser hat
  generalize builder parser.depth parser.arena tokens = built at hfollows
  cases built with
  | error refusal =>
    obtain ⟨after, arena, hrun, hafter⟩ := hfollows
    exact ⟨after, hafter.sound, hafter.depth_eq, .inr ⟨_, hrun⟩⟩
  | ok read =>
    obtain ⟨hsize, after, hrun, hafter⟩ := hfollows
    refine ⟨after, hafter.sound, hafter.depth_eq, .inl ⟨_, hrun, ?_⟩⟩
    have hbefore := hat.position_eq
    have hend := hafter.position_eq
    omega

end Machine

end ScriptFacts
