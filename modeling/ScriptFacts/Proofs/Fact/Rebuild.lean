import Mathlib.Data.List.Forall2
import ScriptFacts.Proofs.Arena.Unfold
import ScriptFacts.Proofs.Fact.Legend

/-!
# Rebuilding a program from its facts

The facts of a program in any order are enough to rebuild it. A reference is followed by looking for
a fact with that subject: a fact of a node, where a child is referred to, and a fact of a cell,
where a list is. Nodes that are shared have several facts, and any of them may be taken, now one
and now another.

* `rebuildNode`: the reader of facts, which starts from the identifier `1`.
* `Ast.rebuild_facts`: it ends, and it gives the tree below the root.
-/
namespace ScriptFacts

/-! ## Reading facts -/

/-- What the argument for a field is. -/
inductive Shape
  | digits
  | text
  | child
  | children

/-- The shape of a field. -/
def Field.shape {α : Type} : Field α → Shape
  | .digits _ => .digits
  | .text _ => .text
  | .child _ => .child
  | .children _ => .children

/-- The shapes of the fields of a kind, in the order of their names. -/
def Kind.shapes : Kind → List Shape
  | .var | .string => [.text]
  | .int => [.digits]
  | .array | .block => [.children]
  | .index | .assign | .cond | .loop => [.child, .child]
  | .binary => [.child, .text, .child]
  | .unary => [.text, .child]
  | .print => [.child]
  | .proc => [.text, .children, .child]
  | .call => [.text, .children]

theorem Node.map_shape_fields (node : Node) : node.fields.map Field.shape = node.kind.shapes := by
  cases node <;> rfl

/-- A place in a tree that is being rebuilt: at each turn into what stands there, or past it. -/
abbrev Path := List Bool

/-- Takes one of several facts. Which one may differ from place to place. -/
abbrev Choice := Path → (candidates : List Fact) → candidates ≠ [] → {fact // fact ∈ candidates}

/-- Whether a fact is about a node. -/
def Fact.isNode (fact : Fact) : Bool :=
  match fact.relation with
  | .node _ => true
  | .empty | .elem => false

section Reader

variable (facts : List Fact) (choice : Choice)

/-- Takes a fact about a node or about a cell, if there is one with the subject `id`. -/
def lookup (aboutNode : Bool) (path : Path) (id : String) : Option Fact :=
  let candidates := facts.filter fun fact => fact.isNode == aboutNode && fact.subject == id
  if h : candidates = [] then none else some (choice path candidates h)

/-- The items of a list from a cell on. -/
def rebuildList (item : Path → String → Option Term) :
    (fuel : Nat) → Path → (cell : String) → Option (List Term)
  | 0, _, _ => none
  | fuel + 1, path, cell => do
    let fact ← lookup facts choice false path cell
    match fact.relation, fact.args with
    | .empty, _ => some []
    | .elem, [_, first, next] =>
      let term ← item (false :: path) first
      let terms ← rebuildList item fuel (true :: path) next
      some (term :: terms)
    | _, _ => none

/-- What an argument of a fact stands for, given how references are followed. -/
def rebuildField (child : Path → String → Option Term)
    (children : Path → String → Option (List Term)) : Shape → Path → String → Option Term
  | .digits, _, arg => some (.bare arg)
  | .text, _, arg => some (.quoted arg)
  | .child, path, arg => child path arg
  | .children, path, arg => (children path arg).map .list

/-- What the arguments of a fact stand for, in order. -/
def rebuildFields (child : Path → String → Option Term)
    (children : Path → String → Option (List Term)) :
    List Shape → Path → List String → Option (List Term)
  | [], _, [] => some []
  | shape :: shapes, path, arg :: args => do
    let term ← rebuildField child children shape (false :: path) arg
    let terms ← rebuildFields child children shapes (true :: path) args
    some (term :: terms)
  | _, _, _ => none

/-- The tree of the node with an identifier. -/
def rebuildNode : (fuel : Nat) → Path → (id : String) → Option Term
  | 0, _, _ => none
  | fuel + 1, path, id => do
    let fact ← lookup facts choice true path id
    match fact.relation with
    | .node kind =>
      let children := rebuildList facts choice (rebuildNode fuel) fuel
      let terms ← rebuildFields (rebuildNode fuel) children kind.shapes path fact.args.tail
      some (.node kind terms)
    | .empty | .elem => none

end Reader

/-! ## Enough fuel -/

theorem le_totalWeight {α : Type} (weight : α → Nat) {x : α} {xs : List α} (h : x ∈ xs) :
    weight x ≤ totalWeight (xs.map weight) := by
  induction xs with
  | nil => simp at h
  | cons first xs ih =>
    rw [List.map_cons, totalWeight]
    rcases List.mem_cons.mp h with rfl | h
    · omega
    · have hle := ih h
      omega

/-- A field weighs no less than any child that it names. -/
theorem Field.le_weight (field : Field Nat) (child : Nat → Nat) {handle : Nat}
    (h : handle ∈ field.handles) : child handle ≤ field.weight child := by
  cases field with
  | digits text | text text => simp [handles] at h
  | child other =>
    obtain rfl := List.mem_singleton.mp h
    exact Nat.le_refl _
  | children handles =>
    have hmem : handle ∈ handles := h
    have hle := le_totalWeight (fun handle => child handle + 1) hmem
    rw [weight]
    omega

/-- A list has a cell for each item, and one more. -/
theorem Field.length_lt_weight (child : Nat → Nat) (items : List Nat) :
    items.length < (Field.children items).weight child := by
  induction items with
  | nil => simp [weight, totalWeight]
  | cons item items ih =>
    rw [weight, List.map_cons, totalWeight, List.length_cons]
    rw [weight] at ih
    omega

/-! ## Enough facts -/

/-- The facts hold, and there is one about every entry of the legend. -/
structure Legend.ToldBy (legend : Legend) (arena : Arena) (facts : List Fact) : Prop where
  holds : ∀ fact ∈ facts, legend.Holds arena fact
  told : ∀ index < legend.length, ∃ fact ∈ facts, fact.subject = (index + 1).repr

namespace Legend.ToldBy

variable {legend : Legend} {arena : Arena} {facts : List Fact}

/-- Whether an entity is a node. -/
def isNode : Entity → Bool
  | .node _ => true
  | .cell _ => false

theorem isNode_of_tells {entity : Entity} {fact : Fact} {args : List String}
    (h : legend.Tells arena entity fact.relation args) : fact.isNode = isNode entity := by
  unfold Fact.isNode
  generalize fact.relation = relation at h
  cases h <;> rfl

/-- A fact whose subject is an identifier tells of what the identifier stands for. -/
theorem tells (h : legend.ToldBy arena facts) {fact : Fact} (hmem : fact ∈ facts) {id : String}
    {entity : Entity} (hnames : legend.Names id entity) (hsubject : fact.subject = id) :
    ∃ args, fact.args = id :: args ∧ legend.Tells arena entity fact.relation args := by
  obtain ⟨args, other, hargs, hother, htells⟩ := h.holds fact hmem
  rw [hsubject] at hargs hother
  obtain rfl := hnames.unique hother
  exact ⟨args, hargs, htells⟩

/-- Whichever fact is taken for an identifier, it tells of what the identifier stands for. -/
theorem lookup_eq_some (h : legend.ToldBy arena facts) (choice : Choice) (path : Path) {id : String}
    {entity : Entity} (hnames : legend.Names id entity) :
    ∃ fact args, lookup facts choice (isNode entity) path id = some fact
      ∧ fact.args = id :: args ∧ legend.Tells arena entity fact.relation args := by
  have hsome :
      (facts.filter fun fact => fact.isNode == isNode entity && fact.subject == id) ≠ [] := by
    obtain ⟨index, hindex, hid⟩ := hnames
    have hlt : index < legend.length := (List.getElem?_eq_some_iff.mp hindex).1
    obtain ⟨fact, hmem, hsubject⟩ := h.told index hlt
    obtain ⟨args, -, htells⟩ := h.tells hmem ⟨index, hindex, hid⟩ (hsubject.trans hid.symm)
    refine List.ne_nil_of_mem (List.mem_filter.mpr ⟨hmem, ?_⟩)
    simp [isNode_of_tells htells, hsubject, hid]
  unfold lookup
  dsimp only
  rw [dif_neg hsome]
  obtain ⟨fact, hfact⟩ := choice path _ hsome
  obtain ⟨hmem, htaken⟩ := List.mem_filter.mp hfact
  simp only [Bool.and_eq_true, beq_iff_eq] at htaken
  obtain ⟨args, hargs, htells⟩ := h.tells hmem hnames htaken.2
  exact ⟨fact, args, rfl, hargs, htells⟩

/-! ## Lists and fields -/

variable {child? : Nat → Option Term} {child : Path → String → Option Term}

/-- The items of a list are found from its cell on, with fuel for each of its cells. -/
theorem rebuildList_eq_some (h : legend.ToldBy arena facts) (choice : Choice) {items : List Nat}
    {terms : List Term} {cell : String} {fuel : Nat} (path : Path)
    (hchild : ∀ handle ∈ items, ∀ term, child? handle = some term → ∀ path id,
      legend.Names id (.node handle) → child path id = some term)
    (hcell : legend.Names cell (.cell items)) (hterms : items.mapM child? = some terms)
    (hfuel : items.length < fuel) : rebuildList facts choice child fuel path cell = some terms := by
  obtain ⟨fuel, rfl⟩ : ∃ n, fuel = n + 1 := ⟨fuel - 1, by omega⟩
  induction items generalizing terms cell fuel path with
  | nil =>
    obtain rfl : [] = terms := by simpa using hterms
    obtain ⟨⟨relation, _, _⟩, args, hlookup, rfl, htells⟩ := h.lookup_eq_some choice path hcell
    rw [rebuildList]
    cases htells with
    | empty => simp only [isNode] at hlookup; simp [hlookup]
  | cons item items ih =>
    obtain ⟨first, more, hfirst, hmore, rfl⟩ := mapM_cons_eq_some_iff.mp hterms
    obtain ⟨hitem, hitems⟩ := List.forall_mem_cons.mp hchild
    obtain ⟨⟨relation, _, _⟩, args, hlookup, rfl, htells⟩ := h.lookup_eq_some choice path hcell
    rw [rebuildList]
    cases htells with
    | elem hname hnext =>
      obtain ⟨fuel, rfl⟩ : ∃ n, fuel = n + 1 := ⟨fuel - 1, by simp at hfuel; omega⟩
      have hrest := ih (true :: path) hitems hnext hmore fuel (by simp at hfuel ⊢; omega)
      simp only [isNode] at hlookup
      simp [hlookup, hitem first hfirst _ _ hname, hrest]

/-- The fields of a node are found from the arguments of any fact about it. -/
theorem rebuildFields_eq_some {children : Path → String → Option (List Term)}
    {fields : List (Field Nat)} {args : List String} {terms : List Term} (path : Path)
    (hargs : List.Forall₂ legend.ArgFor fields args)
    (hterms : fields.mapM (Term.ofField? child?) = some terms)
    (hchild : ∀ field ∈ fields, ∀ handle ∈ field.handles, ∀ term, child? handle = some term →
      ∀ path id, legend.Names id (.node handle) → child path id = some term)
    (hchildren : ∀ items, .children items ∈ fields → ∀ terms, items.mapM child? = some terms →
      ∀ path id, legend.Names id (.cell items) → children path id = some terms) :
    rebuildFields child children (fields.map Field.shape) path args = some terms := by
  induction hargs generalizing terms path with
  | nil =>
    obtain rfl : [] = terms := by simpa using hterms
    rfl
  | @cons field arg fields args harg _ ih =>
    obtain ⟨first, more, hfirst, hmore, rfl⟩ := mapM_cons_eq_some_iff.mp hterms
    have hrest := ih (true :: path) hmore
      (fun field hmem => hchild field (List.mem_cons_of_mem _ hmem))
      (fun items hmem => hchildren items (List.mem_cons_of_mem _ hmem))
    have hfound : rebuildField child children field.shape (false :: path) arg = some first := by
      cases field with
      | digits text | text text =>
        obtain rfl : arg = text := harg
        exact hfirst
      | child handle =>
        exact hchild _ List.mem_cons_self handle (List.mem_singleton_self _) first hfirst _ arg harg
      | children handles =>
        obtain ⟨items, hitems, rfl⟩ := Option.map_eq_some_iff.mp hfirst
        have hlist := hchildren handles List.mem_cons_self items hitems (false :: path) arg harg
        exact Option.map_eq_some_iff.mpr ⟨items, hlist, rfl⟩
    show (rebuildField child children field.shape (false :: path) arg >>= _) = _
    rw [hfound]
    show (rebuildFields child children _ (true :: path) args >>= _) = _
    rw [hrest]
    rfl

/-! ## Nodes -/

/-- The tree of a node is found from any facts that tell of all entries. Each lookup is for a fact
below the node, so there is fuel if there is as much of it as there are such facts. -/
theorem rebuildNode_eq_some (h : legend.ToldBy arena facts) (choice : Choice)
    {levels fuel handle : Nat} {term : Term} {id : String} (path : Path)
    (hterm : arena.termWithin? levels handle = some term) (hid : legend.Names id (.node handle))
    (hfuel : arena.weight levels handle ≤ fuel) :
    rebuildNode facts choice fuel path id = some term := by
  induction levels generalizing fuel handle term id path with
  | zero => simp [Arena.termWithin?] at hterm
  | succ levels ih =>
    rw [Arena.termWithin?] at hterm
    obtain ⟨node, hnode, hterm⟩ := Option.bind_eq_some_iff.mp hterm
    obtain ⟨terms, hterms, hterm⟩ := Option.bind_eq_some_iff.mp hterm
    obtain rfl := Option.some.inj hterm
    rw [Arena.weight_succ hnode] at hfuel
    obtain ⟨fuel, rfl⟩ : ∃ n, fuel = n + 1 := ⟨fuel - 1, by omega⟩
    have hweight : ∀ field ∈ node.fields, field.weight (arena.weight levels) ≤ fuel := by
      intro field hmem
      have hle := le_totalWeight (Field.weight (arena.weight levels)) hmem
      omega
    have hchild : ∀ field ∈ node.fields, ∀ handle ∈ field.handles, ∀ term,
        arena.termWithin? levels handle = some term → ∀ path id,
        legend.Names id (.node handle) → rebuildNode facts choice fuel path id = some term := by
      intro field hmem handle hhandle term hterm path id hid
      have hle := field.le_weight (arena.weight levels) hhandle
      exact ih path hterm hid (Nat.le_trans hle (hweight field hmem))
    have hchildren : ∀ items, .children items ∈ node.fields → ∀ terms,
        items.mapM (arena.termWithin? levels) = some terms → ∀ path id,
        legend.Names id (.cell items) →
        rebuildList facts choice (rebuildNode facts choice fuel) fuel path id = some terms := by
      intro items hmem terms hterms path id hid
      have hlt := Field.length_lt_weight (arena.weight levels) items
      exact h.rebuildList_eq_some choice path (hchild _ hmem) hid hterms
        (Nat.lt_of_lt_of_le hlt (hweight _ hmem))
    obtain ⟨⟨relation, _, _⟩, args, hlookup, rfl, htells⟩ := h.lookup_eq_some choice path hid
    cases htells with
    | @node _ told _ htold hargs =>
      obtain rfl := Option.some.inj (hnode.symm.trans htold)
      have hfields := rebuildFields_eq_some path hargs hterms hchild hchildren
      rw [node.map_shape_fields] at hfields
      simp only [isNode] at hlookup
      rw [rebuildNode, hlookup]
      show (rebuildFields _ _ node.kind.shapes path args >>= _) = _
      rw [hfields]
      rfl

end Legend.ToldBy

/-! ## Whole programs -/

namespace Ast

/-- The facts of a program, in any order and whichever are taken where there are several, rebuild
the tree below its root, with as much fuel as there are facts. Programs that were laid out are
closed and have no circles; others may share nodes. -/
theorem rebuild_facts :
    (∀ stmt : Stmt, stmt.toAst.arena.Closed stmt.toAst.root
        ∧ stmt.toAst.arena.Acyclic stmt.toAst.root)
      ∧ ∀ ast : Ast, ast.arena.Closed ast.root → ast.arena.Acyclic ast.root →
        ∃ set term, ast.facts? = some set ∧ ast.term? = some term ∧
          ∀ facts : List Fact, facts.Perm set.toList → ∀ (choice : Choice) (fuel : Nat),
            facts.length ≤ fuel → rebuildNode facts choice fuel [] "1" = some term := by
  refine ⟨fun stmt => ⟨stmt.closed_toAst, stmt.acyclic_toAst⟩, fun ast hclosed hacyclic => ?_⟩
  have hfits := Arena.fits_of_acyclic hclosed hacyclic
  obtain ⟨final, hpreorder⟩ := Progress.exists_preorder hfits .start
  have hexport : ast.export? = some final := by rw [Ast.export?, Progress.run_node, hpreorder]
  obtain ⟨term, hterm⟩ := hfits.exists_term
  obtain ⟨legend, -, hroot, hholds, htold⟩ := Ast.exists_legend hexport
  refine ⟨final.facts, term, by rw [Ast.facts?, hexport]; rfl, hterm, ?_⟩
  intro facts hperm choice fuel hfuel
  have htoldBy : legend.ToldBy ast.arena facts := by
    refine ⟨fun fact hmem => hholds fact (hperm.mem_iff.mp hmem), fun index hlt => ?_⟩
    obtain ⟨fact, hmem, hsubject⟩ := htold index hlt
    exact ⟨fact, hperm.mem_iff.mpr hmem, hsubject⟩
  have hweight : facts.length = ast.arena.weight ast.arena.size ast.root := by
    have hsize := Progress.size_preorder hpreorder
    rw [hperm.length_eq]
    simpa [FactSet.size, FactSet.toList, Progress.start, FactSet.empty] using hsize
  rw [hweight] at hfuel
  exact htoldBy.rebuildNode_eq_some choice [] hterm ⟨0, hroot, by decide⟩ hfuel

/-- The facts of `print [x, x];` in reverse order, the first of several taken: the tree has `x`
twice, though its node is shared. -/
theorem rebuild_facts_sharing :
    ∃ set, sharing.facts? = some set
      ∧ rebuildNode set.toList.reverse (fun _ candidates h => ⟨candidates.head h, List.head_mem h⟩)
          set.size [] "1"
        = some (.node .print [.node .array
          [.list [.node .var [.quoted "x"], .node .var [.quoted "x"]]]]) := by
  obtain ⟨set, term, hset, hterm, hrebuild⟩ := rebuild_facts.2 sharing
    (descends_sharing.closed sharing.root_lt) (descends_sharing.acyclic sharing.root)
  have hlength : set.toList.reverse.length ≤ set.size := by
    rw [List.length_reverse]
    exact Nat.le_refl _
  refine ⟨set, hset, ?_⟩
  rw [hrebuild _ (List.reverse_perm _) _ _ hlength, ← hterm]
  rfl

end Ast

end ScriptFacts
