import ScriptFacts.Proofs.Arena.Postorder
import ScriptFacts.Proofs.Fact.Legend
import ScriptFacts.Proofs.Fact.References

/-!
# Every identifier has one fact

In the export of a tree, every number that is given out is the subject of one fact. The numbers of
cells differ because each cell is new when a fact refers to it, and those of nodes because the walk
below the root visits every node once; what a number stands for tells the two apart. There are no
more facts than numbers, for no fact is about anything else.

So references can be followed: to each there is one fact, later on and about what is wanted there,
and to each fact but the first there is one reference.

* `Accounts.exists_handles`: the facts of nodes are about what the walk below the root visits.
* `Ast.nodup_subjects`, `Ast.perm_subjects`: the subjects are the numbers that were given out.
* `Arena.weight_of_postorder`: there is a fact for each node and for each cell.
* `Ast.identifiers_ofText`, `Ast.references_ofText`: what follows for the program of a text.
-/
namespace ScriptFacts

open scoped List

/-! ## What facts refer to -/

/-- What the argument for a field stands for, if it is an identifier. -/
def Field.entity? : Field Nat → Option Entity
  | .digits _ | .text _ => none
  | .child handle => some (.node handle)
  | .children items => some (.cell items)

namespace Entity

/-- What the facts about an entity are about. -/
def referent : Entity → Referent
  | node _ => .node
  | cell _ => .cell

/-- The handles that an entity names. -/
def handles : Entity → List Nat
  | node handle => [handle]
  | cell items => items

/-- What the facts about an entity refer to. -/
def below (arena : Arena) : Entity → List Entity
  | node handle =>
    (arena.get? handle).elim [] fun node => node.fields.filterMap Field.entity?
  | cell [] => []
  | cell (item :: items) => [node item, cell items]

end Entity

namespace Legend

variable {legend : Legend} {arena : Arena}

/-- The reference is to the entity: it wants one of its sort, and has its identifier. -/
def Refers (legend : Legend) (reference : Reference) (entity : Entity) : Prop :=
  reference.referent = entity.referent ∧ legend.Names reference.id entity

theorem refers_fields {fields : List (Field Nat)} {args : List String}
    (h : List.Forall₂ legend.ArgFor fields args) :
    List.Forall₂ legend.Refers (referencesAmong (fields.map Field.referent?) args)
      (fields.filterMap Field.entity?) := by
  induction h with
  | nil => exact .nil
  | @cons field arg fields args harg _ ih =>
    cases field with
    | digits text | text text => exact ih
    | child handle | children handles => exact .cons ⟨rfl, harg⟩ ih

/-- A fact about an entity refers to what is below the entity. -/
theorem Tells.refers {entity : Entity} {relation : Relation} {args : List String}
    (h : legend.Tells arena entity relation args) :
    relation.topic = entity.referent
      ∧ List.Forall₂ legend.Refers (referencesAmong relation.referents args)
        (entity.below arena) := by
  cases h with
  | @node handle node args hnode hargs =>
    refine ⟨rfl, ?_⟩
    rw [← node.map_referent?_fields, Entity.below, hnode]
    exact refers_fields hargs
  | empty => exact ⟨rfl, .nil⟩
  | elem hfirst hnext => exact ⟨rfl, .cons ⟨rfl, hfirst⟩ (.cons ⟨rfl, hnext⟩ .nil)⟩

theorem Holds.refers {fact : Fact} {entity : Entity} (h : legend.Holds arena fact)
    (hnames : legend.Names fact.subject entity) :
    legend.Refers fact.topic entity
      ∧ List.Forall₂ legend.Refers fact.references (entity.below arena) := by
  obtain ⟨args, other, hargs, hother, htells⟩ := h
  obtain rfl := hnames.unique hother
  obtain ⟨htopic, hrefers⟩ := htells.refers
  refine ⟨⟨htopic, hnames⟩, ?_⟩
  rwa [Fact.references, hargs, List.tail_cons]

/-- What a fact is about is told by its subject. -/
theorem Holds.topic_unique {fact other : Fact} (h : legend.Holds arena fact)
    (hother : legend.Holds arena other) (hsubject : fact.subject = other.subject) :
    fact.topic.referent = other.topic.referent := by
  have hfact := h
  obtain ⟨_, entity, -, hnames, -⟩ := hfact
  rw [(h.refers hnames).1.1, (hother.refers (hsubject ▸ hnames)).1.1]

end Legend

/-! ## What the facts of nodes are about -/

namespace Entity

theorem handles_below_node {arena : Arena} {handle : Nat} {node : Node}
    (hnode : arena.get? handle = some node) :
    ((Entity.node handle).below arena).flatMap Entity.handles = node.children := by
  rw [below, hnode, Option.elim_some, Node.children]
  induction node.fields with
  | nil => rfl
  | cons field fields ih =>
    cases field with
    | digits text | text text => exact ih
    | child handle | children handles => exact congrArg (_ ++ ·) ih

theorem handles_below_cell (arena : Arena) (items : List Nat) :
    ((cell items).below arena).flatMap Entity.handles = items := by
  cases items <;> simp [below, handles]

end Entity

/-- The facts that take up references are about the nodes on the walks below what is referred to,
each as often as it is visited. -/
theorem Accounts.exists_handles {legend : Legend} {arena : Arena} {root : Nat}
    {walk : Nat → List Nat} (hwalk : arena.Walks root walk) {owed : List Reference}
    {facts : List Fact} (h : Accounts owed facts) (hholds : ∀ fact ∈ facts, legend.Holds arena fact)
    {entities : List Entity}
    (hrefers : List.Forall₂ legend.Refers owed entities)
    (hreach : ∀ handle ∈ entities.flatMap Entity.handles, arena.Reaches root handle) :
    ∃ handles, List.Forall₂ (fun fact handle => legend.Names fact.subject (.node handle))
        (facts.filter (·.topic.referent = .node)) handles
      ∧ handles ~ (entities.flatMap Entity.handles).flatMap walk := by
  induction h generalizing entities with
  | nil =>
    cases hrefers
    exact ⟨[], .nil, .nil⟩
  | @cons fact owed below more _ _ ih ih' =>
    obtain ⟨entity, entities, hself, hmore, rfl⟩ := List.forall₂_cons_left_iff.mp hrefers
    rw [List.flatMap_cons, List.forall_mem_append] at hreach
    obtain ⟨hfact, hfacts⟩ := List.forall_mem_cons.mp hholds
    obtain ⟨hholds, hholds'⟩ := List.forall_mem_append.mp hfacts
    obtain ⟨-, hbelow⟩ := hfact.refers hself.2
    obtain ⟨others, hothers, hperm'⟩ := ih' hholds' hmore hreach.2
    cases entity with
    | node handle =>
      have hhandle := hreach.1 handle (List.mem_singleton_self handle)
      obtain ⟨node, hnode, hvisits⟩ := hwalk.node handle hhandle
      have hchildren := Entity.handles_below_node hnode
      obtain ⟨handles, hhandles, hperm⟩ := ih hholds hbelow (by
        rw [hchildren]
        exact fun child hmem => hhandle.trans (.child ⟨node, hnode, hmem⟩ (.refl child)))
      refine ⟨handle :: (handles ++ others), ?_, ?_⟩
      · rw [List.filter_cons_of_pos (by simp [hself.1, Entity.referent]), List.filter_append]
        exact .cons hself.2 (List.rel_append hhandles hothers)
      · rw [hchildren] at hperm
        rw [List.flatMap_cons, List.flatMap_append, Entity.handles, List.flatMap_singleton, hvisits]
        calc
          _ ~ handles ++ handle :: others := List.perm_middle.symm
          _ = (handles ++ [handle]) ++ others := by simp
          _ ~ _ := (hperm.append_right _).append hperm'
    | cell items =>
      obtain ⟨handles, hhandles, hperm⟩ := ih hholds hbelow (by
        rw [Entity.handles_below_cell]
        exact hreach.1)
      refine ⟨handles ++ others, ?_, ?_⟩
      · rw [List.filter_cons_of_neg (by simp [hself.1, Entity.referent]), List.filter_append]
        exact List.rel_append hhandles hothers
      · rw [Entity.handles_below_cell] at hperm
        rw [List.flatMap_cons, List.flatMap_append]
        exact hperm.append hperm'

/-! ## How many facts there are -/

theorem totalWeight_add {α : Type} (first second : α → Nat) (items : List α) :
    totalWeight (items.map fun item => first item + second item)
      = totalWeight (items.map first) + totalWeight (items.map second) := by
  induction items with
  | nil => rfl
  | cons item items ih =>
    simp only [List.map_cons, totalWeight, ih]
    omega

theorem totalWeight_one {α : Type} (items : List α) :
    totalWeight (items.map fun _ => 1) = items.length := by
  induction items with
  | nil => rfl
  | cons item items ih => rw [List.map_cons, totalWeight, ih, List.length_cons, Nat.add_comm]

theorem totalWeight_flatMap {α β : Type} (weight : β → Nat) (visits : α → List β)
    (items : List α) :
    totalWeight ((items.flatMap visits).map weight)
      = totalWeight (items.map fun item => totalWeight ((visits item).map weight)) := by
  induction items with
  | nil => rfl
  | cons item items ih =>
    rw [List.flatMap_cons, List.map_append, totalWeight_append, List.map_cons, totalWeight, ih]

/-- A field stands for its cells and for what its children stand for. -/
theorem Field.weight_eq (child : Nat → Nat) (field : Field Nat) :
    field.weight child = field.cells + totalWeight (field.handles.map child) := by
  cases field with
  | digits text | text text | child handle => simp [weight, cells, handles, totalWeight]
  | children items =>
    rw [weight, cells, handles, totalWeight_add, totalWeight_one]
    omega

theorem Node.totalWeight_fields (child : Nat → Nat) (node : Node) :
    totalWeight (node.fields.map (Field.weight child))
      = node.cells + totalWeight (node.children.map child) := by
  rw [Node.cells, Node.children]
  induction node.fields with
  | nil => rfl
  | cons field fields ih =>
    simp only [List.map_cons, totalWeight, List.flatMap_cons, List.map_append, totalWeight_append,
      ih, field.weight_eq]
    omega

/-- The number of cells that the sequences of the node at a handle take. -/
def Arena.cellsAt (arena : Arena) (handle : Nat) : Nat :=
  (arena.get? handle).elim 0 Node.cells

namespace Arena

variable {arena : Arena}

/-- There is a fact for every node on a walk and for every cell of its sequences. -/
theorem weight_of_walk {levels handle : Nat} {visited : List Nat}
    (h : arena.postorderWithin? levels handle = some visited) :
    arena.weight levels handle
      = totalWeight (visited.map fun handle => arena.cellsAt handle + 1) := by
  induction levels generalizing handle visited with
  | zero => simp [postorderWithin?] at h
  | succ levels ih =>
    obtain ⟨less, node, walk, hless, hnode, rfl, hwalk⟩ := exists_below h
    obtain rfl : less = levels := (Nat.succ.inj hless).symm
    have hchildren : node.children.map (arena.weight less) = node.children.map
        fun child => totalWeight ((walk child).map fun handle => arena.cellsAt handle + 1) :=
      List.map_congr_left fun child hchild => ih (hwalk child hchild)
    have hcells : arena.cellsAt handle = node.cells := by rw [cellsAt, hnode, Option.elim_some]
    rw [weight_succ hnode, node.totalWeight_fields, hchildren, List.map_append,
      totalWeight_append, totalWeight_flatMap, List.map_singleton, totalWeight, totalWeight, hcells]
    omega

/-- The cells of all nodes, node by node. -/
theorem totalWeight_cellsAt (arena : Arena) :
    totalWeight ((List.range arena.size).map arena.cellsAt) = arena.cells := by
  have hnodes : (List.range arena.size).map arena.cellsAt = arena.nodes.toList.map Node.cells := by
    apply List.ext_getElem
    · simp [size]
    · intro handle hlt _
      have hlt : handle < arena.nodes.size := by simpa [size] using hlt
      rw [List.getElem_map, List.getElem_range, List.getElem_map, Array.getElem_toList, cellsAt,
        get?, Array.getElem?_eq_getElem hlt, Option.elim_some]
  rw [hnodes, cells]

/-- An arena with its nodes in post-order has a fact for each node and for each cell. -/
theorem weight_of_postorder {root : Nat}
    (h : arena.postorder? root = some (List.range arena.size)) :
    arena.weight arena.size root = arena.size + arena.cells := by
  rw [weight_of_walk h, totalWeight_add, totalWeight_cellsAt, totalWeight_one, List.length_range,
    Nat.add_comm]

end Arena

/-! ## No identifier twice -/

/-- Nodes and their identifiers determine each other. -/
theorem Legend.Agrees.biUnique_names {legend : Legend} {numbering : Numbering}
    (h : legend.Agrees numbering) :
    Relator.BiUnique fun (id : String) (handle : Nat) => legend.Names id (.node handle) := by
  constructor
  · intro id other handle hname hother
    obtain ⟨index, hindex, rfl⟩ := hname
    obtain ⟨index', hindex', rfl⟩ := hother
    rw [h.node_unique hindex hindex']
  · intro id handle other hname hother
    exact Entity.node.inj (hname.unique hother)

/-- Facts about cells have different subjects, since every cell is referred to once. -/
theorem Accounts.nodup_cells {before after : Numbering} {id : String} {facts : List Fact}
    (h : Accounts [⟨.node, id⟩] facts)
    (hcells : before.NumbersCells after (facts.flatMap Fact.references)) :
    ((facts.filter (·.topic.referent = .cell)).map Fact.subject).Nodup := by
  obtain ⟨cells, hcells, hincreasing, -⟩ := hcells
  have hperm := (h.perm_topics.filter (·.referent = .cell)).map Reference.id
  rw [List.filter_map, List.map_map, List.filter_append, hcells] at hperm
  have hnodup : (cells.map Nat.repr).Nodup :=
    List.Nodup.map (fun _ _ => Legend.repr_injective) (hincreasing.imp Nat.ne_of_lt)
  refine hperm.nodup_iff.mpr ?_
  simpa [Function.comp_def] using hnodup

/-- A fact is about a node or about a cell. -/
theorem Fact.filter_topic_perm (facts : List Fact) :
    facts.filter (·.topic.referent = .node) ++ facts.filter (·.topic.referent = .cell) ~ facts := by
  have hcell : ∀ fact : Fact, decide (fact.topic.referent = .cell)
      = !decide (fact.topic.referent = .node) := fun fact => by
    cases fact.topic.referent <;> rfl
  simp only [hcell]
  exact List.filter_append_perm _ _

namespace Ast

variable {ast : Ast} {final : Progress}

/-- In the export of a tree, no two facts have the same subject. -/
theorem nodup_subjects (hexport : ast.export? = some final)
    (hwalk : ast.arena.postorder? ast.root = some (List.range ast.arena.size)) :
    (final.facts.toList.map Fact.subject).Nodup := by
  obtain ⟨legend, hagrees, hroot, hholds, -⟩ := Ast.exists_legend hexport
  obtain ⟨haccounts, hcells⟩ := Ast.accounts_export hexport
  obtain ⟨walk, hwalks, hvisited⟩ := Arena.exists_walks hwalk
  have hname : legend.Names "1" (.node ast.root) := ⟨0, hroot, by decide⟩
  obtain ⟨handles, hhandles, hperm⟩ := haccounts.exists_handles hwalks hholds
    (.cons ⟨rfl, hname⟩ .nil) (by simpa [Entity.handles] using .refl ast.root)
  have hhandles_nodup : handles.Nodup := by
    refine hperm.nodup_iff.mpr ?_
    simpa [Entity.handles, hvisited] using List.nodup_range
  have hnodes : ((final.facts.toList.filter (·.topic.referent = .node)).map Fact.subject).Nodup :=
    (List.rel_nodup hagrees.biUnique_names (List.forall₂_map_left_iff.mpr hhandles)).mpr
      hhandles_nodup
  have hsplit := (Fact.filter_topic_perm final.facts.toList).map Fact.subject
  rw [← hsplit.nodup_iff, List.map_append, List.nodup_append]
  refine ⟨hnodes, haccounts.nodup_cells hcells, fun id hid other hother hsame => ?_⟩
  -- No number stands for a node and for a cell.
  obtain ⟨fact, hfact, rfl⟩ := List.mem_map.mp hid
  obtain ⟨fact', hfact', rfl⟩ := List.mem_map.mp hother
  obtain ⟨hmem, hnode⟩ := List.mem_filter.mp hfact
  obtain ⟨hmem', hcell⟩ := List.mem_filter.mp hfact'
  have htopic := (hholds fact hmem).topic_unique (hholds fact' hmem') hsame
  rw [of_decide_eq_true hnode, of_decide_eq_true hcell] at htopic
  exact absurd htopic (by decide)

/-- In the export of a tree, the subjects are the numbers that were given out. -/
theorem perm_subjects (hexport : ast.export? = some final)
    (hwalk : ast.arena.postorder? ast.root = some (List.range ast.arena.size)) :
    final.facts.toList.map Fact.subject
      ~ (List.range final.numbering.issued).map fun index => (index + 1).repr := by
  obtain ⟨legend, hagrees, -, hholds, htold⟩ := Ast.exists_legend hexport
  have hnumerals : ((List.range legend.length).map fun index => (index + 1).repr).Nodup :=
    List.nodup_range.map fun _ _ h => Nat.succ.inj (Legend.repr_injective h)
  rw [hagrees.issued, List.perm_ext_iff_of_nodup (nodup_subjects hexport hwalk) hnumerals]
  intro id
  constructor
  · intro hid
    obtain ⟨fact, hfact, rfl⟩ := List.mem_map.mp hid
    obtain ⟨_, _, -, ⟨index, hindex, hsubject⟩, -⟩ := hholds fact hfact
    have hlt := (List.getElem?_eq_some_iff.mp hindex).1
    exact List.mem_map.mpr ⟨index, List.mem_range.mpr hlt, hsubject.symm⟩
  · intro hid
    obtain ⟨index, hindex, rfl⟩ := List.mem_map.mp hid
    obtain ⟨fact, hfact, hsubject⟩ := htold index (List.mem_range.mp hindex)
    exact List.mem_map.mpr ⟨fact, hfact, hsubject⟩

/-- The export of a tree has a fact for each node and for each cell. -/
theorem size_facts (hexport : ast.export? = some final)
    (hwalk : ast.arena.postorder? ast.root = some (List.range ast.arena.size)) :
    final.facts.size = ast.arena.size + ast.arena.cells := by
  rw [Ast.export?, Progress.run_node] at hexport
  have hweight := Progress.size_preorder hexport
  rw [Arena.weight_of_postorder hwalk] at hweight
  simpa [Progress.start, FactSet.empty, FactSet.size] using hweight

/-- The first fact of an export is about the root, which has the number 1. -/
theorem exists_first (hexport : ast.export? = some final) :
    ∃ first, final.facts.get? 0 = some first ∧ first.subject = "1"
      ∧ first.relation = .node ast.rootNode.kind
      ∧ final.numbering.known[ast.root]? = some 1 := by
  obtain ⟨legend, hagrees, hroot, hholds, -⟩ := Ast.exists_legend hexport
  obtain ⟨first, hfirst, htopic⟩ := (Ast.accounts_export hexport).1.exists_head
  have hsubject : first.subject = "1" := congrArg Reference.id htopic
  obtain ⟨args, entity, -, hname, htells⟩ := hholds first (List.mem_of_getElem? hfirst)
  rw [hsubject] at hname
  obtain rfl : entity = .node ast.root := hname.unique ⟨0, hroot, by decide⟩
  have hnode := ast.get?_root
  generalize hrelation : first.relation = relation at htells
  cases htells with
  | node hget _ =>
    obtain rfl := Option.some.inj (hget.symm.trans hnode)
    rw [← FactSet.get?_eq] at hfirst
    exact ⟨first, hfirst, hsubject, hrelation, (hagrees.known _ _).mpr ⟨0, rfl, hroot⟩⟩

/-! ## Parsed programs -/

/-- The identifiers of the export of a text: each has one fact, they are the numbers from 1 on, and
there are as many of them as facts, as numbers that were given out, and as nodes and cells. The
first fact is about the root. -/
theorem identifiers_ofText (limit : Nat) (text : List Char) (ast : Ast)
    (h : (Stmt.ofText limit text).map Stmt.toAst = .ok ast) :
    ∃ final first, ast.export? = some final
      ∧ (final.facts.toList.map Fact.subject).Nodup
      ∧ (∀ id, id ∈ final.facts.toList.map Fact.subject
        ↔ ∃ number, 1 ≤ number ∧ number ≤ final.facts.size ∧ id = number.repr)
      ∧ final.facts.size = final.numbering.issued
      ∧ final.facts.size = ast.arena.size + ast.arena.cells
      ∧ final.facts.get? 0 = some first ∧ first.subject = "1"
      ∧ first.relation = .node ast.rootNode.kind
      ∧ final.numbering.known[ast.root]? = some 1 := by
  obtain ⟨stmt, rfl⟩ := Stmt.exists_of_map_toAst h
  obtain ⟨final, hexport⟩ := Ast.exists_export stmt.closed_toAst stmt.acyclic_toAst
  have hwalk := stmt.postorder?_toAst
  have hsubjects := perm_subjects hexport hwalk
  have hissued : final.facts.size = final.numbering.issued := by
    have hlength := hsubjects.length_eq
    simpa [FactSet.toList, FactSet.size] using hlength
  obtain ⟨first, hfirst⟩ := exists_first hexport
  refine ⟨final, first, hexport, nodup_subjects hexport hwalk, fun id => ?_, hissued,
    size_facts hexport hwalk, hfirst⟩
  rw [hsubjects.mem_iff, List.mem_map, hissued]
  constructor
  · rintro ⟨index, hindex, rfl⟩
    exact ⟨index + 1, Nat.succ_pos index, List.mem_range.mp hindex, rfl⟩
  · rintro ⟨number, hpos, hle, rfl⟩
    refine ⟨number - 1, List.mem_range.mpr (by omega), ?_⟩
    rw [Nat.sub_add_cancel hpos]

/-- In the export of `print [1];`, three nodes and two cells make five facts. -/
theorem identifiers_ofText_array :
    ∃ ast final, (Stmt.ofText 3 "print [1];".toList).map Stmt.toAst = .ok ast
      ∧ ast.export? = some final ∧ final.facts.size = 5 ∧ final.numbering.issued = 5
      ∧ ∀ id, id ∈ final.facts.toList.map Fact.subject
        ↔ ∃ number, 1 ≤ number ∧ number ≤ 5 ∧ id = number.repr := by
  have hstream : TokenStream.ofText "print [1];".toList = .ok
      ⟨[⟨.keyword .print, ⟨1, 1⟩⟩, ⟨.symbol .openBracket, ⟨1, 7⟩⟩, ⟨.int 1, ⟨1, 8⟩⟩,
        ⟨.symbol .closeBracket, ⟨1, 9⟩⟩, ⟨.symbol .semicolon, ⟨1, 10⟩⟩], ⟨1, 11⟩⟩ :=
    TokenStream.ofText_of_toOption (by decide +kernel)
  have hast : (Stmt.ofText 3 "print [1];".toList).map Stmt.toAst
      = .ok (Stmt.print (.array [.int 1])).toAst := by
    rw [Stmt.ofText_of_stream hstream]
    rfl
  obtain ⟨final, first, hexport, -, hmem, hissued, hsize, -⟩ := identifiers_ofText 3 _ _ hast
  have hfive : final.facts.size = 5 := hsize.trans (by decide +kernel)
  rw [hfive] at hmem
  exact ⟨_, final, hast, hexport, hfive, hissued ▸ hfive, hmem⟩

/-- Every identifier in a fact of the export of a text is the subject of one fact, a later one, of
the sort that is wanted there; and every subject but that of the root stands in one such place. -/
theorem references_ofText (limit : Nat) (text : List Char) (ast : Ast)
    (h : (Stmt.ofText limit text).map Stmt.toAst = .ok ast) :
    ∃ final, ast.export? = some final
      ∧ (∀ index fact, final.facts.get? index = some fact → ∀ reference ∈ fact.references,
        ∃ later other, final.facts.get? later = some other ∧ index < later
          ∧ other.topic = reference
          ∧ ∀ place third, final.facts.get? place = some third → third.subject = reference.id →
            place = later)
      ∧ final.numbering.known[ast.root]? = some 1
      ∧ ∀ fact ∈ final.facts.toList, fact.subject ≠ "1" →
        (final.facts.references.map Reference.id).count fact.subject = 1 := by
  obtain ⟨stmt, rfl⟩ := Stmt.exists_of_map_toAst h
  obtain ⟨final, hexport⟩ := Ast.exists_export stmt.closed_toAst stmt.acyclic_toAst
  have hnodup := nodup_subjects hexport stmt.postorder?_toAst
  obtain ⟨haccounts, -⟩ := Ast.accounts_export hexport
  obtain ⟨-, -, -, -, hroot⟩ := exists_first hexport
  refine ⟨final, hexport, ?_, hroot, ?_⟩
  · intro index fact hfact reference hmem
    simp only [FactSet.get?_eq] at hfact ⊢
    obtain ⟨later, other, hlt, hother, htopic⟩ := haccounts.resolved.exists_later hfact hmem
    refine ⟨later, other, hother, hlt, htopic, fun place third hthird hsubject => ?_⟩
    have hsame : third.subject = other.subject := hsubject.trans (congrArg Reference.id htopic).symm
    have hplace := (List.getElem?_eq_some_iff.mp hthird).1
    refine (List.getElem?_inj (by rwa [List.length_map]) hnodup).mp ?_
    rw [List.getElem?_map, List.getElem?_map, hthird, hother, Option.map_some, Option.map_some,
      hsame]
  · intro fact hfact hne
    have hperm : final.facts.toList.map Fact.subject
        ~ "1" :: final.facts.references.map Reference.id := by
      have hids := haccounts.perm_topics.map Reference.id
      rwa [List.map_map] at hids
    have hmem := List.mem_map_of_mem (f := Fact.subject) hfact
    have hcount := hperm.count_eq fact.subject
    rw [List.count_eq_one_of_mem hnodup hmem, List.count_cons_of_ne (Ne.symm hne)] at hcount
    exact hcount.symm

/-- The two items of `f(x, x);` are two nodes, and each is referred to from one place. -/
theorem references_ofText_items :
    ∃ ast final, (Stmt.ofText 2 "f(x, x);".toList).map Stmt.toAst = .ok ast
      ∧ ast.export? = some final
      ∧ ∀ fact ∈ final.facts.toList, fact.subject ≠ "1" →
        (final.facts.references.map Reference.id).count fact.subject = 1 := by
  have hstream : TokenStream.ofText "f(x, x);".toList = .ok
      ⟨[⟨.name "f", ⟨1, 1⟩⟩, ⟨.symbol .openParen, ⟨1, 2⟩⟩, ⟨.name "x", ⟨1, 3⟩⟩,
        ⟨.symbol .comma, ⟨1, 4⟩⟩, ⟨.name "x", ⟨1, 6⟩⟩, ⟨.symbol .closeParen, ⟨1, 7⟩⟩,
        ⟨.symbol .semicolon, ⟨1, 8⟩⟩], ⟨1, 9⟩⟩ :=
    TokenStream.ofText_of_toOption (by decide +kernel)
  have hast : (Stmt.ofText 2 "f(x, x);".toList).map Stmt.toAst
      = .ok (Stmt.call "f" [.var "x", .var "x"]).toAst := by
    rw [Stmt.ofText_of_stream hstream]
    rfl
  obtain ⟨final, hexport, -, -, hcount⟩ := references_ofText 2 _ _ hast
  exact ⟨_, final, hast, hexport, hcount⟩

end Ast

end ScriptFacts
