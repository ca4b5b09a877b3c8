import Mathlib.Data.Finset.Card
import Mathlib.Data.Finset.Range
import Mathlib.Data.List.Forall2
import ScriptFacts.Arena.Reach
import ScriptFacts.Arena.Term

/-!
# The depth of a program

Below a handle there may be no more levels than nodes, unless children lead back to their parent: on
the way down, fewer nodes can be reached at every step. A handle that leads nowhere can only be the
last on its way.

* `Arena.fits_of_acyclic`: a closed program without circles has a depth, at most its size.
* `Arena.shallow_of_acyclic`: so has a program whose handles may lead nowhere.
* `Arena.Descends.acyclic`: where children come before their parents, there are no circles.
-/
namespace ScriptFacts

/-! ## Sequences of results -/

theorem exists_of_forall₂ {α β : Type} {related : α → β → Prop} {items : List α} {others : List β}
    (h : List.Forall₂ related items others) {item : α} (hmem : item ∈ items) :
    ∃ other ∈ others, related item other := by
  induction h with
  | nil => simp at hmem
  | @cons first other items others hfirst _ ih =>
    rcases List.mem_cons.mp hmem with rfl | hmem
    · exact ⟨other, List.mem_cons_self, hfirst⟩
    · obtain ⟨other', hother, hrelated⟩ := ih hmem
      exact ⟨other', List.mem_cons_of_mem _ hother, hrelated⟩

/-- A sequence of results is there if its first and the others are. -/
theorem mapM_cons_eq_some_iff {α β : Type} {f : α → Option β} {item : α} {items : List α}
    {results : List β} : (item :: items).mapM f = some results ↔
      ∃ first more, f item = some first ∧ items.mapM f = some more ∧ first :: more = results := by
  rw [List.mapM_cons]
  constructor
  · intro h
    obtain ⟨first, hfirst, h⟩ := Option.bind_eq_some_iff.mp h
    obtain ⟨more, hmore, h⟩ := Option.bind_eq_some_iff.mp h
    exact ⟨first, more, hfirst, hmore, Option.some.inj h⟩
  · rintro ⟨first, more, hfirst, hmore, rfl⟩
    rw [hfirst, hmore]
    rfl

/-- A sequence of results has the result of each item in its place. -/
theorem forall₂_of_mapM {α β : Type} {f : α → Option β} {items : List α} {results : List β}
    (h : items.mapM f = some results) :
    List.Forall₂ (fun item result => f item = some result) items results := by
  induction items generalizing results with
  | nil =>
    obtain rfl := Option.some.inj h
    exact .nil
  | cons item items ih =>
    obtain ⟨first, more, hfirst, hmore, rfl⟩ := mapM_cons_eq_some_iff.mp h
    exact .cons hfirst (ih hmore)

theorem mapM_mono {α β : Type} {f g : α → Option β} {items : List α} {results : List β}
    (hfg : ∀ item result, f item = some result → g item = some result)
    (h : items.mapM f = some results) : items.mapM g = some results := by
  induction items generalizing results with
  | nil => exact h
  | cons item items ih =>
    obtain ⟨first, more, hfirst, hmore, rfl⟩ := mapM_cons_eq_some_iff.mp h
    exact mapM_cons_eq_some_iff.mpr ⟨first, more, hfg item first hfirst, ih hmore, rfl⟩

/-- A sequence of results is there if each of them is. -/
theorem exists_mapM {α β : Type} {f : α → Option β} {items : List α}
    (h : ∀ item ∈ items, ∃ result, f item = some result) :
    ∃ results, items.mapM f = some results := by
  induction items with
  | nil => exact ⟨[], rfl⟩
  | cons item items ih =>
    obtain ⟨hitem, hitems⟩ := List.forall_mem_cons.mp h
    obtain ⟨result, hresult⟩ := hitem
    obtain ⟨results, hresults⟩ := ih hitems
    exact ⟨_, mapM_cons_eq_some_iff.mpr ⟨result, results, hresult, hresults, rfl⟩⟩

namespace Arena

variable {arena : Arena}

/-! ## Depth -/

/-- All handles below `handle` lead to nodes, and no way down is longer than `levels`. -/
def Fits (arena : Arena) : (levels : Nat) → (handle : Nat) → Prop
  | 0, _ => False
  | levels + 1, handle =>
    ∃ node, arena.get? handle = some node ∧ ∀ child ∈ node.children, arena.Fits levels child

/-- What fits can be unfolded. -/
theorem Fits.exists_term {levels handle : Nat} (h : arena.Fits levels handle) :
    ∃ term, arena.termWithin? levels handle = some term := by
  induction levels generalizing handle with
  | zero => exact h.elim
  | succ levels ih =>
    obtain ⟨node, hnode, hchildren⟩ := h
    obtain ⟨fields, hfields⟩ : ∃ fields,
        node.fields.mapM (Term.ofField? (arena.termWithin? levels)) = some fields := by
      refine exists_mapM fun field hfield => ?_
      have hbelow : ∀ child ∈ field.handles, ∃ term, arena.termWithin? levels child = some term :=
        fun child hmem => ih (hchildren child (List.mem_flatMap_of_mem hfield hmem))
      cases field with
      | digits text | text text => exact ⟨_, rfl⟩
      | child handle => exact hbelow handle (List.mem_singleton_self handle)
      | children handles =>
        obtain ⟨terms, hterms⟩ := exists_mapM hbelow
        exact ⟨.list terms, Option.map_eq_some_iff.mpr ⟨terms, hterms, rfl⟩⟩
    exact ⟨.node node.kind fields, by rw [Arena.termWithin?, hnode]; simp [hfields]⟩

/-- More levels than a tree needs change nothing. -/
theorem termWithin?_mono {levels more handle : Nat} {term : Term} (hle : levels ≤ more)
    (h : arena.termWithin? levels handle = some term) :
    arena.termWithin? more handle = some term := by
  induction levels generalizing more handle term with
  | zero => simp [termWithin?] at h
  | succ levels ih =>
    obtain ⟨more, rfl⟩ : ∃ n, more = n + 1 := ⟨more - 1, by omega⟩
    have hchild : ∀ handle term, arena.termWithin? levels handle = some term →
        arena.termWithin? more handle = some term := fun _ _ => ih (by omega)
    have hfield : ∀ field term, Term.ofField? (arena.termWithin? levels) field = some term →
        Term.ofField? (arena.termWithin? more) field = some term := by
      intro field term hterm
      cases field with
      | digits _ | text _ => exact hterm
      | child handle => exact hchild handle term hterm
      | children handles =>
        obtain ⟨terms, hterms, rfl⟩ := Option.map_eq_some_iff.mp hterm
        exact Option.map_eq_some_iff.mpr ⟨terms, mapM_mono hchild hterms, rfl⟩
    obtain ⟨node, hnode, h⟩ := Option.bind_eq_some_iff.mp h
    obtain ⟨fields, hfields, h⟩ := Option.bind_eq_some_iff.mp h
    exact Option.bind_eq_some_iff.mpr
      ⟨node, hnode, Option.bind_eq_some_iff.mpr ⟨fields, mapM_mono hfield hfields, h⟩⟩

open Classical in
/-- The handles of nodes that are reached from a handle. -/
noncomputable def reached (arena : Arena) (handle : Nat) : Finset Nat :=
  (Finset.range arena.size).filter (arena.Reaches handle)

theorem mem_reached {handle other : Nat} :
    other ∈ arena.reached handle ↔ other < arena.size ∧ arena.Reaches handle other := by
  simp [reached]

theorem card_reached_le (handle : Nat) : (arena.reached handle).card ≤ arena.size := by
  have hsubset : arena.reached handle ⊆ Finset.range arena.size := fun other hmem =>
    Finset.mem_range.mpr (mem_reached.mp hmem).1
  have hcard := Finset.card_le_card hsubset
  rwa [Finset.card_range] at hcard

theorem Child.lt_size {parent child : Nat} (h : arena.Child parent child) :
    parent < arena.size := by
  obtain ⟨node, hnode, -⟩ := h
  exact (Array.getElem?_eq_some_iff.mp hnode).1

/-- Fewer nodes are reached from a child than from its parent. -/
theorem card_reached_lt {root parent child : Nat} (hacyclic : arena.Acyclic root)
    (hparent : arena.Reaches root parent) (hchild : arena.Child parent child) :
    (arena.reached child).card < (arena.reached parent).card := by
  apply Finset.card_lt_card
  rw [Finset.ssubset_iff_of_subset]
  · refine ⟨parent, mem_reached.mpr ⟨hchild.lt_size, .refl parent⟩, ?_⟩
    intro hmem
    exact hacyclic parent child hparent hchild (mem_reached.mp hmem).2
  · intro other hmem
    obtain ⟨hlt, hreach⟩ := mem_reached.mp hmem
    exact mem_reached.mpr ⟨hlt, .child hchild hreach⟩

theorem fits_of_card_le {root handle levels : Nat} (hclosed : arena.Closed root)
    (hacyclic : arena.Acyclic root) (hhandle : arena.Reaches root handle)
    (hlevels : (arena.reached handle).card ≤ levels) : arena.Fits levels handle := by
  induction levels generalizing handle with
  | zero =>
    have hmem : handle ∈ arena.reached handle :=
      mem_reached.mpr ⟨hclosed handle hhandle, .refl handle⟩
    have hpos := Finset.card_pos.mpr ⟨handle, hmem⟩
    omega
  | succ levels ih =>
    obtain ⟨node, hnode⟩ := hclosed.exists_node hhandle
    refine ⟨node, hnode, fun child hmem => ?_⟩
    have hchild : arena.Child handle child := ⟨_, hnode, hmem⟩
    have hcard := card_reached_lt hacyclic hhandle hchild
    exact ih (hhandle.trans (.child hchild (.refl child))) (by omega)

/-- A closed program without circles is no deeper than its arena is large. -/
theorem fits_of_acyclic {root : Nat} (hclosed : arena.Closed root)
    (hacyclic : arena.Acyclic root) : arena.Fits arena.size root :=
  fits_of_card_le hclosed hacyclic (.refl root) (card_reached_le root)

theorem closed_iff {root : Nat} :
    arena.Closed root ↔ ¬ ∃ bad, arena.Reaches root bad ∧ arena.size ≤ bad := by
  simp [Closed]

/-- Whatever is reached from a handle that fits is there. -/
theorem Fits.closed {levels handle : Nat} (h : arena.Fits levels handle) :
    arena.Closed handle := by
  intro other hreach
  induction hreach generalizing levels with
  | refl handle =>
    cases levels with
    | zero => exact h.elim
    | succ levels =>
      obtain ⟨node, hnode, -⟩ := h
      exact (Array.getElem?_eq_some_iff.mp hnode).1
  | child hchild _ ih =>
    cases levels with
    | zero => exact h.elim
    | succ levels =>
      obtain ⟨node, hnode, hmem⟩ := hchild
      obtain ⟨node', hnode', hchildren⟩ := h
      obtain rfl := Option.some.inj (hnode.symm.trans hnode')
      exact ih (hchildren _ hmem)

/-! ## Depth with handles that lead nowhere -/

/-- No way down from `handle` is longer than `levels`, the handle with which it ends included. That
handle may lead nowhere. -/
def Shallow (arena : Arena) : (levels : Nat) → (handle : Nat) → Prop
  | 0, _ => False
  | levels + 1, handle => ∀ child, arena.Child handle child → arena.Shallow levels child

theorem shallow_of_card_lt {root handle levels : Nat} (hacyclic : arena.Acyclic root)
    (hhandle : arena.Reaches root handle) (hlevels : (arena.reached handle).card < levels) :
    arena.Shallow levels handle := by
  induction levels generalizing handle with
  | zero => omega
  | succ levels ih =>
    intro child hchild
    have hcard := card_reached_lt hacyclic hhandle hchild
    exact ih (hhandle.trans (.child hchild (.refl child))) (by omega)

/-- Without circles, a way down passes each node once, and may end with a handle more. -/
theorem shallow_of_acyclic {root : Nat} (hacyclic : arena.Acyclic root) :
    arena.Shallow (arena.size + 1) root :=
  shallow_of_card_lt hacyclic (.refl root) (Nat.lt_succ_of_le (card_reached_le root))

/-- From a handle that leads nowhere, nothing but itself is reached. -/
theorem Reaches.eq_of_size_le {handle other : Nat} (h : arena.Reaches handle other)
    (hsize : arena.size ≤ handle) : other = handle := by
  cases h with
  | refl => rfl
  | child hchild _ =>
    have hlt := hchild.lt_size
    omega

/-- There are no circles where every child that is there comes before its parent. -/
theorem acyclic_of_lt (h : ∀ parent child, arena.Child parent child → child < arena.size →
    child < parent) (root : Nat) : arena.Acyclic root := by
  have hle : ∀ {handle other}, arena.Reaches handle other → other < arena.size →
      other ≤ handle := by
    intro handle other hreach hother
    induction hreach with
    | refl => exact Nat.le_refl _
    | @child parent child _ hchild hbelow ih =>
      have hle := ih hother
      by_cases hthere : child < arena.size
      · have hlt := h parent child hchild hthere
        omega
      · have heq := hbelow.eq_of_size_le (Nat.le_of_not_lt hthere)
        omega
  intro parent child _ hchild hback
  have hparent := hchild.lt_size
  by_cases hthere : child < arena.size
  · have hlt := h parent child hchild hthere
    have hback := hle hback hparent
    omega
  · have heq := hback.eq_of_size_le (Nat.le_of_not_lt hthere)
    omega

theorem acyclic_of_nodes (h : ∀ handle (hlt : handle < arena.nodes.size),
    ∀ child ∈ arena.nodes[handle].children, child < arena.size → child < handle) (root : Nat) :
    arena.Acyclic root := by
  apply acyclic_of_lt
  intro parent child hparent hthere
  obtain ⟨node, hnode, hchild⟩ := hparent
  obtain ⟨hlt, rfl⟩ := Array.getElem?_eq_some_iff.mp hnode
  exact h parent hlt child hchild hthere

/-! ## Children before parents -/

/-- Every child comes before its parent. -/
def Descends (arena : Arena) : Prop :=
  ∀ parent child, arena.Child parent child → child < parent

namespace Descends

theorem of_nodes (h : ∀ handle (hlt : handle < arena.nodes.size),
    ∀ child ∈ arena.nodes[handle].children, child < handle) : arena.Descends := by
  intro parent child hparent
  obtain ⟨node, hnode, hchild⟩ := hparent
  obtain ⟨hlt, rfl⟩ := Array.getElem?_eq_some_iff.mp hnode
  exact h parent hlt child hchild

theorem le_of_reaches (h : arena.Descends) {handle other : Nat}
    (hreach : arena.Reaches handle other) : other ≤ handle := by
  induction hreach with
  | refl => exact Nat.le_refl _
  | child hchild _ ih => exact Nat.le_trans ih (Nat.le_of_lt (h _ _ hchild))

theorem closed (h : arena.Descends) {root : Nat} (hroot : root < arena.size) :
    arena.Closed root := fun _ hreach =>
  Nat.lt_of_le_of_lt (h.le_of_reaches hreach) hroot

theorem acyclic (h : arena.Descends) (root : Nat) : arena.Acyclic root :=
  acyclic_of_lt (fun parent child hchild _ => h parent child hchild) root

theorem empty : Arena.empty.Descends := by
  intro parent child hparent
  obtain ⟨node, hnode, -⟩ := hparent
  simp [Arena.empty, get?] at hnode

theorem push (h : arena.Descends) {node : Node}
    (hnode : ∀ child ∈ node.children, child < arena.size) : (arena.push node).2.Descends := by
  intro parent child hparent
  obtain ⟨found, hfound, hchild⟩ := hparent
  rw [get?_push] at hfound
  by_cases hlast : parent = arena.size
  · rw [if_pos hlast] at hfound
    obtain rfl := Option.some.inj hfound
    rw [hlast]
    exact hnode child hchild
  · rw [if_neg hlast] at hfound
    exact h parent child ⟨found, hfound, hchild⟩

end Descends

end Arena

end ScriptFacts
