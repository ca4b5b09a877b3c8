import Mathlib.Data.Finset.Card
import Std.Data.TreeMap.Lemmas
import ScriptFacts.Fact.Numbering

/-!
# One number for each thing

Nodes, which keep their numbers, and list cells, which never do, are numbered by one counter, in
whatever order they are asked for. The transcript of the requests tells all that a numbering knows:
the nodes with their numbers are the entries for nodes, the numbers given out are those from 1 up to
the counter, and two entries with the same number are for the same node. Every answer keeps this
(`Accounts`), because a new number is one more than all before it.

* `Numbering.Accounts.answer`: one more answer.
* `Numbering.accounts_transcript`: any number of them.
* `Numbering.transcript_fresh`: what a whole run of requests to a fresh numbering is answered.
-/
namespace ScriptFacts.Numbering

/-- The handles of the nodes that are asked for. -/
def handles (requests : List Request) : Finset Nat :=
  (requests.filterMap Request.handle?).toFinset

/-- The numbers that requests take: one for each node, however often it is asked for, and one for
each cell. -/
def demand (requests : List Request) : Nat :=
  (handles requests).card + requests.count .cell

/-- A request to which a number is given out, new or known. -/
def Request.IsNumbered (request : Request) : Prop :=
  request ≠ .count

/-- Of two entries with numbers, both have the same number only if they are for the same node. -/
def Compatible (entry other : Request × Nat) : Prop :=
  entry.1.IsNumbered → other.1.IsNumbered → entry.2 = other.2 →
    ∃ handle, entry.1 = .node handle ∧ other.1 = .node handle

/-- A numbering knows what is in the transcript of its past, and gave out no other numbers. -/
structure Accounts (numbering : Numbering) (past : List (Request × Nat)) : Prop where
  known : ∀ handle number, numbering.known[handle]? = some number ↔ (.node handle, number) ∈ past
  numbers : ∀ number, (∃ request : Request, request.IsNumbered ∧ (request, number) ∈ past)
    ↔ 1 ≤ number ∧ number ≤ numbering.issued
  compatible : past.Pairwise Compatible
  issued : numbering.issued = demand (past.map Prod.fst)

/-! ## How many numbers are needed -/

theorem mem_handles {requests : List Request} {handle : Nat} :
    handle ∈ handles requests ↔ .node handle ∈ requests := by
  rw [handles, List.mem_toFinset, List.mem_filterMap]
  constructor
  · rintro ⟨request, hrequest, hhandle⟩
    cases request with
    | node other =>
      obtain rfl := Option.some.inj hhandle
      exact hrequest
    | cell | count => simp [Request.handle?] at hhandle
  · exact fun hrequest => ⟨_, hrequest, rfl⟩

/-- A node takes a number when it is asked for the first time. -/
theorem demand_snoc_node (requests : List Request) (handle : Nat) :
    demand (requests ++ [.node handle])
      = if Request.node handle ∈ requests then demand requests else demand requests + 1 := by
  have hinsert : handles (requests ++ [.node handle]) = insert handle (handles requests) := by
    ext other
    simp [mem_handles, or_comm]
  unfold demand
  rw [hinsert]
  by_cases hold : Request.node handle ∈ requests
  · rw [if_pos hold, Finset.insert_eq_of_mem (mem_handles.mpr hold)]
    simp
  · rw [if_neg hold, Finset.card_insert_of_notMem (mt mem_handles.mp hold)]
    simp
    omega

theorem demand_snoc_cell (requests : List Request) :
    demand (requests ++ [.cell]) = demand requests + 1 := by
  have hhandles : handles (requests ++ [.cell]) = handles requests := by
    ext other
    simp [mem_handles]
  simp [demand, hhandles]
  omega

theorem demand_snoc_count (requests : List Request) :
    demand (requests ++ [.count]) = demand requests := by
  have hhandles : handles (requests ++ [.count]) = handles requests := by
    ext other
    simp [mem_handles]
  simp [demand, hhandles]

/-! ## One more answer -/

namespace Accounts

variable {numbering : Numbering} {past : List (Request × Nat)}

theorem fresh : Accounts .fresh [] where
  known := by simp [Numbering.fresh]
  numbers := by
    intro number
    simp [Numbering.fresh]
    omega
  compatible := .nil
  issued := by simp [Numbering.fresh, demand, handles]

theorem le_issued (h : Accounts numbering past) {request : Request} {number : Nat}
    (hrequest : request.IsNumbered) (hmem : (request, number) ∈ past) :
    number ≤ numbering.issued :=
  ((h.numbers number).mp ⟨request, hrequest, hmem⟩).2

/-- A number is given out once, or for one node. -/
theorem same_index_or_node (h : Accounts numbering past) {i j number : Nat}
    {request other : Request} (hi : past[i]? = some (request, number))
    (hj : past[j]? = some (other, number)) (hrequest : request.IsNumbered)
    (hother : other.IsNumbered) :
    i = j ∨ ∃ handle, request = .node handle ∧ other = .node handle := by
  obtain ⟨hilt, higet⟩ := List.getElem?_eq_some_iff.mp hi
  obtain ⟨hjlt, hjget⟩ := List.getElem?_eq_some_iff.mp hj
  have hpairs := List.pairwise_iff_getElem.mp h.compatible
  rcases Nat.lt_trichotomy i j with hlt | heq | hgt
  · have hpair := hpairs i j hilt hjlt hlt
    rw [higet, hjget] at hpair
    exact .inr (hpair hrequest hother rfl)
  · exact .inl heq
  · have hpair := hpairs j i hjlt hilt hgt
    rw [higet, hjget] at hpair
    obtain ⟨handle, hsecond, hfirst⟩ := hpair hother hrequest rfl
    exact .inr ⟨handle, hfirst, hsecond⟩

theorem request_unique (h : Accounts numbering past) {number : Nat} {request other : Request}
    (hentry : (request, number) ∈ past) (hother : (other, number) ∈ past)
    (hrequest : request.IsNumbered) (hother' : other.IsNumbered) : request = other := by
  obtain ⟨i, hi⟩ := List.mem_iff_getElem?.mp hentry
  obtain ⟨j, hj⟩ := List.mem_iff_getElem?.mp hother
  rcases h.same_index_or_node hi hj hrequest hother' with rfl | ⟨handle, rfl, rfl⟩
  · exact congrArg Prod.fst (Option.some.inj (hi.symm.trans hj))
  · rfl

theorem compatible_snoc (h : Accounts numbering past) {last : Request × Nat}
    (hlast : ∀ entry ∈ past, Compatible entry last) : (past ++ [last]).Pairwise Compatible := by
  apply List.pairwise_append.mpr
  refine ⟨h.compatible, List.pairwise_singleton _ _, ?_⟩
  intro entry hentry other hother
  obtain rfl := List.mem_singleton.mp hother
  exact hlast entry hentry

/-- The next number is the number of nothing else. -/
theorem compatible_next (h : Accounts numbering past) (request : Request) :
    (past ++ [(request, numbering.issued + 1)]).Pairwise Compatible := by
  apply h.compatible_snoc
  intro entry hentry hnumbered _ hsame
  have hle := h.le_issued hnumbered hentry
  simp only at hsame
  omega

/-- With the next number, the numbers given out go on by one. -/
theorem numbers_next (h : Accounts numbering past) {request : Request}
    (hrequest : request.IsNumbered) (number : Nat) :
    (∃ other : Request, other.IsNumbered
        ∧ (other, number) ∈ past ++ [(request, numbering.issued + 1)])
      ↔ 1 ≤ number ∧ number ≤ numbering.issued + 1 := by
  have hpast := h.numbers number
  constructor
  · rintro ⟨other, hother, hmem⟩
    rcases List.mem_append.mp hmem with hmem | hmem
    · have hbounds := hpast.mp ⟨other, hother, hmem⟩
      omega
    · simp only [List.mem_singleton, Prod.mk.injEq] at hmem
      omega
  · intro hbounds
    by_cases hlast : number = numbering.issued + 1
    · exact ⟨request, hrequest, by simp [hlast]⟩
    · obtain ⟨other, hother, hmem⟩ := hpast.mpr (by omega)
      exact ⟨other, hother, List.mem_append_left _ hmem⟩

/-- Without a new entry that has a number, the numbers given out stay the same. -/
theorem numbers_kept (h : Accounts numbering past) {last : Request × Nat}
    (hlast : last.1.IsNumbered → last ∈ past) (number : Nat) :
    (∃ request : Request, request.IsNumbered ∧ (request, number) ∈ past ++ [last])
      ↔ 1 ≤ number ∧ number ≤ numbering.issued := by
  rw [← h.numbers]
  constructor
  · rintro ⟨request, hrequest, hmem⟩
    rcases List.mem_append.mp hmem with hmem | hmem
    · exact ⟨request, hrequest, hmem⟩
    · obtain rfl := List.mem_singleton.mp hmem
      exact ⟨request, hrequest, hlast hrequest⟩
  · rintro ⟨request, hrequest, hmem⟩
    exact ⟨request, hrequest, List.mem_append_left _ hmem⟩

/-- A node that is asked for again has its number. -/
theorem again (h : Accounts numbering past) {handle number : Nat}
    (hmem : (.node handle, number) ∈ past) :
    Accounts numbering (past ++ [(.node handle, number)]) where
  known := by
    intro other found
    rw [h.known]
    simp only [List.mem_append, List.mem_singleton]
    constructor
    · exact .inl
    · rintro (hfound | hlast)
      · exact hfound
      · exact hlast ▸ hmem
  numbers := h.numbers_kept fun _ => hmem
  compatible := by
    apply h.compatible_snoc
    intro entry hentry hnumbered hlastNumbered hsame
    obtain ⟨request, number⟩ := entry
    obtain rfl : number = _ := hsame
    exact ⟨handle, h.request_unique hentry hmem hnumbered hlastNumbered, rfl⟩
  issued := by
    have hold : .node handle ∈ past.map Prod.fst := List.mem_map.mpr ⟨_, hmem, rfl⟩
    rw [List.map_append, List.map_cons, List.map_nil, demand_snoc_node, if_pos hold, h.issued]

/-- A node that was not asked for takes the next number. -/
theorem first (h : Accounts numbering past) {handle : Nat}
    (hnone : numbering.known[handle]? = none) :
    Accounts ⟨numbering.issued + 1, numbering.known.insert handle (numbering.issued + 1)⟩
      (past ++ [(.node handle, numbering.issued + 1)]) where
  known := by
    intro other number
    have hnew : (Request.node handle, number) ∉ past := by
      rw [← h.known, hnone]
      simp
    rw [Std.TreeMap.getElem?_insert]
    by_cases hother : handle = other
    · subst hother
      simp [hnew, eq_comm]
    · have hcompare : compare handle other ≠ .eq := by simpa using hother
      rw [if_neg hcompare, h.known]
      simp [Ne.symm hother]
  numbers := h.numbers_next (by simp [Request.IsNumbered])
  compatible := h.compatible_next _
  issued := by
    have hunasked : Request.node handle ∉ past.map Prod.fst := by
      intro hmem
      obtain ⟨⟨_, number⟩, hentry, rfl⟩ := List.mem_map.mp hmem
      rw [← h.known, hnone] at hentry
      simp at hentry
    rw [List.map_append, List.map_cons, List.map_nil, demand_snoc_node, if_neg hunasked, ← h.issued]

/-- A cell takes the next number. -/
theorem cell (h : Accounts numbering past) :
    Accounts numbering.cell.2 (past ++ [(.cell, numbering.cell.1)]) where
  known := by simp [Numbering.cell, h.known]
  numbers := h.numbers_next (by simp [Request.IsNumbered])
  compatible := h.compatible_next _
  issued := by
    rw [List.map_append, List.map_cons, List.map_nil, demand_snoc_cell, ← h.issued]
    rfl

/-- Counting takes no number. -/
theorem count (h : Accounts numbering past) (number : Nat) :
    Accounts numbering (past ++ [(.count, number)]) where
  known := by simp [h.known]
  numbers := h.numbers_kept fun hnumbered => absurd rfl hnumbered
  compatible := h.compatible_snoc fun _ _ _ hnumbered => absurd rfl hnumbered
  issued := by
    rw [List.map_append, List.map_cons, List.map_nil, demand_snoc_count, ← h.issued]

/-- Every answer keeps the account. -/
theorem answer (h : Accounts numbering past) (request : Request) :
    Accounts (numbering.answer request).2 (past ++ [(request, (numbering.answer request).1)]) := by
  cases request with
  | node handle =>
    show Accounts (numbering.node handle).2 (past ++ [(_, (numbering.node handle).1)])
    unfold Numbering.node
    split
    · next number hnumber => exact h.again ((h.known handle number).mp hnumber)
    · next hnone => exact h.first hnone
  | cell => exact h.cell
  | count => exact h.count _

end Accounts

/-- The requests to a numbering are answered as its past says. -/
theorem accounts_transcript {numbering : Numbering} {past : List (Request × Nat)}
    (h : Accounts numbering past) (requests : List Request) :
    Accounts (transcript requests numbering).2 (past ++ (transcript requests numbering).1) := by
  induction requests generalizing numbering past with
  | nil => simpa [transcript] using h
  | cons request requests ih =>
    have hrest := ih (h.answer request)
    rw [List.append_assoc] at hrest
    exact hrest

/-- Requests to a fresh numbering, in any order. A node gets the same number whenever it is asked
for, and no two nodes get the same. A cell gets a number that nothing else gets, before or after it.
At any time, the numbers given out are those from 1 up to the number of nodes and cells that were
asked for, each node counted once, and this is the answer to whoever asks for the count. -/
theorem transcript_fresh (requests : List Request) (entries : List (Request × Nat))
    (h : (transcript requests .fresh).1 = entries) :
    entries.map Prod.fst = requests
      ∧ (∀ handle other number number', (.node handle, number) ∈ entries →
        (.node other, number') ∈ entries → (number = number' ↔ handle = other))
      ∧ (∀ (i j : Nat) (request : Request) (number : Nat), entries[i]? = some (.cell, number) →
        entries[j]? = some (request, number) → request.IsNumbered → i = j)
      ∧ (∀ i : Nat, requests[i]? = some .count →
        entries[i]? = some (.count, demand (requests.take i)))
      ∧ ∀ k number, (∃ request : Request, request.IsNumbered ∧ (request, number) ∈ entries.take k)
        ↔ 1 ≤ number ∧ number ≤ demand (requests.take k) := by
  subst h
  have haccounts := accounts_transcript .fresh requests
  -- The same at any time before the end.
  have hsofar (k : Nat) : Accounts (transcript (requests.take k) .fresh).2
      ((transcript requests .fresh).1.take k) := by
    rw [take_transcript]
    exact accounts_transcript .fresh (requests.take k)
  have hissued (k : Nat) :
      (transcript (requests.take k) .fresh).2.issued = demand (requests.take k) := by
    rw [(hsofar k).issued, take_transcript, map_fst_transcript]
  refine ⟨map_fst_transcript requests .fresh, ?_, ?_, ?_, ?_⟩
  · intro handle other number number' hnode hother
    constructor
    · rintro rfl
      have hsame := haccounts.request_unique hnode hother (by simp [Request.IsNumbered])
        (by simp [Request.IsNumbered])
      exact Request.node.inj hsame
    · rintro rfl
      have hknown := (haccounts.known handle number).mpr hnode
      exact Option.some.inj (hknown.symm.trans ((haccounts.known handle number').mpr hother))
  · intro i j request number hi hj hnumbered
    have hcell : Request.cell.IsNumbered := by simp [Request.IsNumbered]
    rcases haccounts.same_index_or_node hi hj hcell hnumbered with hsame | ⟨handle, hnode, -⟩
    · exact hsame
    · simp at hnode
  · intro i hi
    rw [getElem?_transcript, hi, ← hissued i]
    rfl
  · intro k number
    rw [← hissued k]
    exact (hsofar k).numbers number

/-- A cell, a node, a cell, the node again, another node and the count: five requests take four
numbers. -/
theorem transcript_fresh_interleaved :
    ∃ entries, (transcript [.cell, .node 8, .cell, .node 8, .node 3, .count] .fresh).1 = entries
      ∧ entries = [(.cell, 1), (.node 8, 2), (.cell, 3), (.node 8, 2), (.node 3, 4), (.count, 4)]
      ∧ entries[5]? = some (.count, demand [.cell, .node 8, .cell, .node 8, .node 3]) := by
  obtain ⟨-, -, -, hcount, -⟩ :=
    transcript_fresh [.cell, .node 8, .cell, .node 8, .node 3, .count] _ rfl
  exact ⟨_, rfl, by decide +kernel, hcount 5 rfl⟩

end ScriptFacts.Numbering
