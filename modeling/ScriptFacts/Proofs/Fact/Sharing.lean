import Mathlib.Data.Finset.Card
import ScriptFacts.Proofs.Fact.Sources

/-!
# Identifiers of shared nodes

A node that several parents share is exported once for each way down to it. It keeps its identifier
and whatever its fields hold, but its lists take new cells every time. So facts about one node
differ in the cells at which its lists begin, and in nothing else; and no cell is ever used twice.

* `Ast.Sourced.subject_eq_iff`, `Ast.Sourced.args_eq`: facts about one node.
* `Ast.Sourced.count_cell`, `Ast.Sourced.cell_ne_node`: facts about cells.
* `Ast.heads_ne`: the lists of two facts begin at different cells.
* `Ast.Sourced.issued_eq`: how many numbers are given out.
* `Ast.identifiers_of_sharing`: what the identifiers of an export tell apart.
-/
namespace ScriptFacts

/-! ## Facts about one node -/

/-- Two accounts of the same fields differ at most in the cells. -/
theorem Legend.Agrees.args_eq {legend : Legend} {numbering : Numbering}
    (h : legend.Agrees numbering) {fields : List (Field Nat)} {args others : List String}
    (hargs : List.Forall₂ legend.ArgFor fields args)
    (hothers : List.Forall₂ legend.ArgFor fields others) {position : Nat}
    (hposition : (fields.map Field.referent?)[position]? ≠ some (some .cell)) :
    args[position]? = others[position]? := by
  induction hargs generalizing others position with
  | nil =>
    cases hothers
    rfl
  | @cons field arg fields args harg _ ih =>
    obtain ⟨other, others, hother, hmore, rfl⟩ := List.forall₂_cons_left_iff.mp hothers
    cases position with
    | zero =>
      cases field with
      | digits text | text text => exact congrArg some (harg.trans hother.symm)
      | child handle => exact congrArg some (h.biUnique_names.1 harg hother)
      | children handles => exact absurd rfl hposition
    | succ position => exact ih hmore hposition

namespace Ast.Sourced

variable {ast : Ast} {final : Progress} {legend : Legend} {sources : List (Option Nat)}

/-- What a fact was made for. -/
theorem makes (h : ast.Sourced final legend sources) {fact : Fact} {source : Option Nat}
    (hfact : (fact, source) ∈ final.facts.toList.zip sources) : ast.arena.Makes fact source := by
  obtain ⟨⟨args, other, -, hother, htells⟩, entity, hnames, hsource⟩ :=
    List.forall₂_zip h.facts hfact
  obtain rfl := hnames.unique hother
  generalize hrelation : fact.relation = relation at htells
  subst hsource
  cases htells with
  | node hnode _ => exact ⟨_, hnode, hrelation⟩
  | empty => exact .inr hrelation
  | elem => exact .inl hrelation

/-- Facts about nodes have one subject exactly if they were made for one handle. -/
theorem subject_eq_iff (h : ast.Sourced final legend sources) {fact other : Fact}
    {handle handle' : Nat} (hfact : (fact, some handle) ∈ final.facts.toList.zip sources)
    (hother : (other, some handle') ∈ final.facts.toList.zip sources) :
    fact.subject = other.subject ↔ handle = handle' := by
  have hnames := h.names_node hfact
  have hnames' := h.names_node hother
  constructor
  · intro hsubject
    rw [← hsubject] at hnames'
    exact Entity.node.inj (hnames.unique hnames')
  · intro hhandle
    subst hhandle
    exact h.agrees.biUnique_names.1 hnames hnames'

/-- A fact about a node has the relation and the arguments that its fields ask for. -/
theorem exists_args (h : ast.Sourced final legend sources) {fact : Fact} {handle : Nat}
    (hfact : (fact, some handle) ∈ final.facts.toList.zip sources) {node : Node}
    (hnode : ast.arena.get? handle = some node) :
    ∃ args, fact.args = fact.subject :: args ∧ fact.relation = .node node.kind
      ∧ List.Forall₂ legend.ArgFor node.fields args := by
  obtain ⟨⟨args, other, hargs, hother, htells⟩, -⟩ := List.forall₂_zip h.facts hfact
  obtain rfl := hother.unique (h.names_node hfact)
  generalize hrelation : fact.relation = relation at htells
  cases htells with
  | node hget hforall =>
    obtain rfl := Option.some.inj (hget.symm.trans hnode)
    exact ⟨args, hargs, rfl, hforall⟩

/-- Facts about one node have one relation, and the same arguments but for the cells at which lists
begin. -/
theorem args_eq (h : ast.Sourced final legend sources) {fact other : Fact} {handle : Nat}
    (hfact : (fact, some handle) ∈ final.facts.toList.zip sources)
    (hother : (other, some handle) ∈ final.facts.toList.zip sources) :
    fact.relation = other.relation ∧ ∀ position, ¬ fact.relation.HeadAt position →
      fact.args[position]? = other.args[position]? := by
  obtain ⟨node, hnode, -⟩ := h.makes hfact
  obtain ⟨args, hargs, hrelation, hforall⟩ := h.exists_args hfact hnode
  obtain ⟨others, hothers, hrelation', hforall'⟩ := h.exists_args hother hnode
  refine ⟨hrelation.trans hrelation'.symm, fun position hposition => ?_⟩
  rw [hargs, hothers, (h.subject_eq_iff hfact hother).mpr rfl]
  cases position with
  | zero => rfl
  | succ position =>
    rw [hrelation, Relation.HeadAt, ← node.map_referent?_fields] at hposition
    exact h.agrees.args_eq hforall hforall' hposition

/-! ## Facts about cells -/

/-- What a fact about a cell is about. -/
theorem names_cell (h : ast.Sourced final legend sources) {fact : Fact}
    (hfact : fact ∈ final.facts.toList) (hcell : fact.relation.topic = .cell) :
    ∃ items, legend.Names fact.subject (.cell items) := by
  obtain ⟨-, entity, -, hnames, -⟩ := h.holds fact hfact
  obtain ⟨⟨htopic, -⟩, -⟩ := (h.holds fact hfact).refers hnames
  cases entity with
  | node handle => exact absurd (hcell.symm.trans htopic) (by simp [Entity.referent])
  | cell items => exact ⟨items, hnames⟩

/-- No other fact has the subject of a fact about a cell. -/
theorem count_cell (h : ast.Sourced final legend sources) (hexport : ast.export? = some final)
    {fact : Fact} (hfact : fact ∈ final.facts.toList) (hcell : fact.relation.topic = .cell) :
    (final.facts.toList.map Fact.subject).count fact.subject = 1 := by
  obtain ⟨haccounts, hcells⟩ := Ast.accounts_export hexport
  have hsplit := (Fact.filter_topic_perm final.facts.toList).map Fact.subject
  rw [← hsplit.count_eq, List.map_append, List.count_append]
  have hnodes : fact.subject
      ∉ (final.facts.toList.filter (·.topic.referent = .node)).map Fact.subject := by
    intro hmem
    obtain ⟨other, hother, hsubject⟩ := List.mem_map.mp hmem
    obtain ⟨hother, hnode⟩ := List.mem_filter.mp hother
    have htopic := (h.holds other hother).topic_unique (h.holds fact hfact) hsubject
    rw [of_decide_eq_true hnode] at htopic
    exact absurd (htopic.trans hcell) (by decide)
  have hself : fact.subject
      ∈ (final.facts.toList.filter (·.topic.referent = .cell)).map Fact.subject :=
    List.mem_map_of_mem (List.mem_filter.mpr ⟨hfact, decide_eq_true hcell⟩)
  rw [List.count_eq_zero_of_not_mem hnodes,
    List.count_eq_one_of_mem (haccounts.nodup_cells hcells) hself]

/-- A cell has no number that a node has. -/
theorem cell_ne_node (h : ast.Sourced final legend sources) {fact : Fact}
    (hfact : fact ∈ final.facts.toList) (hcell : fact.relation.topic = .cell)
    {handle number : Nat} (hknown : final.numbering.known[handle]? = some number) :
    fact.subject ≠ number.repr := by
  obtain ⟨items, hnames⟩ := h.names_cell hfact hcell
  obtain ⟨index, rfl, hindex⟩ := (h.agrees.known handle number).mp hknown
  intro hsubject
  have hsame := hnames.unique ⟨index, hindex, hsubject⟩
  simp at hsame

end Ast.Sourced

/-- Facts refer to different cells. -/
theorem Ast.disjoint_cells {ast : Ast} {final : Progress} (hexport : ast.export? = some final) :
    final.facts.toList.Pairwise fun fact other =>
      ∀ id, ⟨.cell, id⟩ ∈ fact.references → ⟨.cell, id⟩ ∉ other.references := by
  obtain ⟨-, cells, hcells, hincreasing, -⟩ := Ast.accounts_export hexport
  have hnodup : (final.facts.references.filter (·.referent = .cell)).Nodup := by
    rw [hcells]
    refine List.Nodup.map ?_ (hincreasing.imp Nat.ne_of_lt)
    intro cell other hsame
    exact Legend.repr_injective (Reference.mk.inj hsame).2
  rw [FactSet.references, List.filter_flatMap, List.nodup_flatMap] at hnodup
  refine hnodup.2.imp ?_
  intro fact other hdisjoint id hmem hother
  exact hdisjoint (List.mem_filter.mpr ⟨hmem, rfl⟩) (List.mem_filter.mpr ⟨hother, rfl⟩)

/-! ## How many numbers were given out -/

namespace Legend

/-- The entries for nodes. -/
def nodeEntries (legend : Legend) : Finset Nat :=
  (Finset.range legend.length).filter fun index => (legend[index]?.bind Entity.handle?).isSome

/-- The entries for cells. -/
def cellEntries (legend : Legend) : Finset Nat :=
  (Finset.range legend.length).filter fun index => ¬ (legend[index]?.bind Entity.handle?).isSome

variable {legend : Legend} {index : Nat}

theorem bind_handle?_eq {handle : Nat} :
    legend[index]?.bind Entity.handle? = some handle ↔ legend[index]? = some (.node handle) := by
  rw [Option.bind_eq_some_iff]
  constructor
  · rintro ⟨entity, hindex, hentity⟩
    cases entity with
    | node other =>
      obtain rfl := Option.some.inj hentity
      exact hindex
    | cell items => simp [Entity.handle?] at hentity
  · intro hindex
    exact ⟨_, hindex, rfl⟩

theorem mem_nodeEntries : index ∈ legend.nodeEntries ↔
    ∃ handle, legend[index]? = some (.node handle) := by
  rw [nodeEntries, Finset.mem_filter, Finset.mem_range, Option.isSome_iff_exists]
  simp only [bind_handle?_eq]
  constructor
  · exact fun h => h.2
  · rintro ⟨handle, hindex⟩
    exact ⟨(List.getElem?_eq_some_iff.mp hindex).1, handle, hindex⟩

theorem mem_cellEntries : index ∈ legend.cellEntries ↔
    ∃ items, legend[index]? = some (.cell items) := by
  rw [cellEntries, Finset.mem_filter, Finset.mem_range]
  constructor
  · rintro ⟨hlt, hnone⟩
    have hindex : legend[index]? = some legend[index] := List.getElem?_eq_getElem hlt
    cases hentry : legend[index] with
    | node handle =>
      rw [hindex, hentry] at hnone
      exact absurd rfl hnone
    | cell items => exact ⟨items, hentry ▸ hindex⟩
  · rintro ⟨items, hindex⟩
    refine ⟨(List.getElem?_eq_some_iff.mp hindex).1, ?_⟩
    simp [hindex, Entity.handle?]

end Legend

namespace Ast.Sourced

variable {ast : Ast} {final : Progress} {legend : Legend} {sources : List (Option Nat)}

/-- There is one entry for each node that is reached. -/
theorem card_nodeEntries (h : ast.Sourced final legend sources)
    (hclosed : ast.arena.Closed ast.root) :
    legend.nodeEntries.card = (ast.arena.reached ast.root).card := by
  have hinjective : Set.InjOn (fun index => legend[index]?.bind Entity.handle?)
      (legend.nodeEntries : Set Nat) := by
    intro index hindex other _ hsame
    obtain ⟨handle, hindex⟩ := Legend.mem_nodeEntries.mp hindex
    have hother := Legend.bind_handle?_eq.mp (hsame.symm.trans (Legend.bind_handle?_eq.mpr hindex))
    exact h.agrees.node_unique hindex hother
  have himage : legend.nodeEntries.image (fun index => legend[index]?.bind Entity.handle?)
      = (ast.arena.reached ast.root).image some := by
    ext entry
    simp only [Finset.mem_image, Legend.mem_nodeEntries, Arena.mem_reached]
    constructor
    · rintro ⟨index, ⟨handle, hindex⟩, rfl⟩
      have hreaches := h.reaches_iff.mpr ⟨index, hindex⟩
      exact ⟨handle, ⟨hclosed handle hreaches, hreaches⟩, (Legend.bind_handle?_eq.mpr hindex).symm⟩
    · rintro ⟨handle, ⟨-, hreaches⟩, rfl⟩
      obtain ⟨index, hindex⟩ := h.reaches_iff.mp hreaches
      exact ⟨index, ⟨handle, hindex⟩, Legend.bind_handle?_eq.mpr hindex⟩
  rw [← Finset.card_image_of_injOn hinjective, himage,
    Finset.card_image_of_injective _ (Option.some_injective _)]

/-- There is one entry for each fact about a cell. -/
theorem card_cellEntries (h : ast.Sourced final legend sources)
    (hexport : ast.export? = some final) :
    legend.cellEntries.card
      = (final.facts.toList.filter (·.topic.referent = .cell)).length := by
  obtain ⟨haccounts, hcells⟩ := Ast.accounts_export hexport
  have hinjective : Function.Injective fun index : Nat => (index + 1).repr :=
    fun _ _ hsame => Nat.succ.inj (Legend.repr_injective hsame)
  have himage : legend.cellEntries.image (fun index => (index + 1).repr)
      = ((final.facts.toList.filter (·.topic.referent = .cell)).map Fact.subject).toFinset := by
    ext id
    simp only [Finset.mem_image, Legend.mem_cellEntries, List.mem_toFinset, List.mem_map,
      List.mem_filter, decide_eq_true_eq]
    constructor
    · rintro ⟨index, ⟨items, hindex⟩, rfl⟩
      obtain ⟨fact, hfact, hsubject⟩ := h.told index (List.getElem?_eq_some_iff.mp hindex).1
      obtain ⟨⟨htopic, -⟩, -⟩ := (h.holds fact hfact).refers ⟨index, hindex, hsubject⟩
      exact ⟨fact, ⟨hfact, htopic⟩, hsubject⟩
    · rintro ⟨fact, ⟨hfact, hcell⟩, rfl⟩
      obtain ⟨items, index, hindex, hsubject⟩ := h.names_cell hfact hcell
      exact ⟨index, ⟨items, hindex⟩, hsubject.symm⟩
  rw [← Finset.card_image_of_injective _ hinjective, himage,
    List.toFinset_card_of_nodup (haccounts.nodup_cells hcells), List.length_map]

/-- A number was given out for each node that is reached and for each fact about a cell. -/
theorem issued_eq (h : ast.Sourced final legend sources) (hclosed : ast.arena.Closed ast.root)
    (hexport : ast.export? = some final) :
    final.numbering.issued = (ast.arena.reached ast.root).card
      + (final.facts.toList.filter (·.topic.referent = .cell)).length := by
  rw [← h.card_nodeEntries hclosed, ← h.card_cellEntries hexport, h.agrees.issued,
    Legend.nodeEntries, Legend.cellEntries, Finset.card_filter_add_card_filter_not,
    Finset.card_range]

end Ast.Sourced

/-! ## What identifiers tell apart -/

/-- A fact about a cell says that the list goes on there, or that it ends. -/
theorem FactSet.length_cells (set : FactSet) :
    (set.toList.filter (·.topic.referent = .cell)).length
      = (set.withRelation .elem).length + (set.withRelation .empty).length := by
  unfold withRelation
  induction set.toList with
  | nil => rfl
  | cons fact facts ih =>
    have htopic : fact.topic.referent = fact.relation.topic := rfl
    simp only [List.filter_cons, htopic]
    cases hrelation : fact.relation with
    | node kind => simpa [Relation.topic] using ih
    | empty | elem =>
      simp only [Relation.topic, decide_true, if_true, List.length_cons, ih]
      simp
      omega

/-- How the facts of an export use identifiers, the facts having been made for the handles in
`sources`. -/
structure Ast.TellsApart (ast : Ast) (final : Progress) (sources : List (Option Nat)) : Prop where
  /-- Each fact is about the node of the handle for which it was made, or about a list cell. -/
  makes : List.Forall₂ ast.arena.Makes final.facts.toList sources
  /-- Facts about nodes have one subject exactly if they were made for one handle. -/
  subject_eq_iff : ∀ fact handle other handle',
    (fact, some handle) ∈ final.facts.toList.zip sources →
    (other, some handle') ∈ final.facts.toList.zip sources →
      (fact.subject = other.subject ↔ handle = handle')
  /-- They have one relation then, and the same arguments but for those at which lists begin. -/
  args_eq : ∀ fact other handle,
    (fact, some handle) ∈ final.facts.toList.zip sources →
    (other, some handle) ∈ final.facts.toList.zip sources →
      fact.relation = other.relation ∧ ∀ position, ¬ fact.relation.HeadAt position →
        fact.args[position]? = other.args[position]?
  /-- Each cell has one fact. -/
  count_cell : ∀ fact ∈ final.facts.toList, fact.relation = .elem ∨ fact.relation = .empty →
    (final.facts.toList.map Fact.subject).count fact.subject = 1
  /-- No cell has the number of a node. -/
  cell_ne_node : ∀ fact ∈ final.facts.toList, fact.relation = .elem ∨ fact.relation = .empty →
    ∀ handle number : Nat, final.numbering.known[handle]? = some number →
      fact.subject ≠ number.repr
  /-- The lists of two facts begin at different cells, whether or not the facts are about one
  node. -/
  heads_ne : ∀ index other fact fact' position position',
    final.facts.get? index = some fact → final.facts.get? other = some fact' → index ≠ other →
    fact.relation.HeadAt position → fact'.relation.HeadAt position' →
      fact.args[position]? ≠ fact'.args[position']?
  /-- There is a number for each node that is reached, and for each fact about a cell. -/
  issued_eq : final.numbering.issued = (ast.arena.reached ast.root).card
    + ((final.facts.withRelation .elem).length + (final.facts.withRelation .empty).length)

namespace Ast

/-- The lists of two facts begin at different cells. -/
theorem heads_ne {ast : Ast} {final : Progress} (hexport : ast.export? = some final)
    {index other : Nat} {fact fact' : Fact} {position position' : Nat}
    (hfact : final.facts.get? index = some fact) (hother : final.facts.get? other = some fact')
    (hne : index ≠ other) (hhead : fact.relation.HeadAt position)
    (hhead' : fact'.relation.HeadAt position') :
    fact.args[position]? ≠ fact'.args[position']? := by
  have hdisjoint := List.pairwise_iff_getElem.mp (disjoint_cells hexport)
  obtain ⟨id, hid⟩ := Fact.exists_head hhead
  obtain ⟨id', hid'⟩ := Fact.exists_head hhead'
  have hmem := Fact.mem_references_of_headAt hhead hid
  have hmem' := Fact.mem_references_of_headAt hhead' hid'
  rw [hid, hid']
  -- If the cells were the same, two facts would refer to one cell.
  rintro ⟨⟩
  rw [FactSet.get?_eq] at hfact hother
  obtain ⟨hindex, rfl⟩ := List.getElem?_eq_some_iff.mp hfact
  obtain ⟨hindex', rfl⟩ := List.getElem?_eq_some_iff.mp hother
  rcases Nat.lt_or_gt_of_ne hne with hlt | hlt
  · exact hdisjoint index other hindex hindex' hlt id hmem hmem'
  · exact hdisjoint other index hindex' hindex hlt id hmem' hmem

/-- However nodes are shared, identifiers tell nodes and cells apart. -/
theorem identifiers_of_sharing (ast : Ast) (hclosed : ast.arena.Closed ast.root)
    (hacyclic : ast.arena.Acyclic ast.root) :
    ∃ final sources, ast.export? = some final
      ∧ Progress.Traces ast.arena [.node ast.arena.size ast.root] .start sources final
      ∧ ast.TellsApart final sources := by
  obtain ⟨final, hexport⟩ := Ast.exists_export hclosed hacyclic
  obtain ⟨sources, legend, htraces, h⟩ := Ast.exists_sourced hexport
  refine ⟨final, sources, hexport, htraces, ?_⟩
  constructor
  · refine List.forall₂_iff_zip.mpr ⟨h.facts.length_eq, ?_⟩
    intro fact source hmem
    exact h.makes hmem
  · intro fact handle other handle' hfact hother
    exact h.subject_eq_iff hfact hother
  · intro fact other handle hfact hother
    exact h.args_eq hfact hother
  · intro fact hfact hrelation
    exact h.count_cell hexport hfact (Relation.topic_eq_cell_iff.mpr hrelation)
  · intro fact hfact hrelation handle number hknown
    exact h.cell_ne_node hfact (Relation.topic_eq_cell_iff.mpr hrelation) hknown
  · intro index other fact fact' position position' hfact hother hne hhead hhead'
    exact heads_ne hexport hfact hother hne hhead hhead'
  · rw [h.issued_eq hclosed hexport, FactSet.length_cells]

/-- The program `f([x], [x]);` with one node for both lists. -/
def sharingLists : Ast := ⟨⟨#[.var "x", .array [0], .call "f" [1, 1]]⟩, 2, by decide⟩

/-- Three nodes have numbers, one each. The shared list takes two cells each time, so with those of
the arguments there are seven. -/
theorem identifiers_of_sharing_lists :
    ∃ final sources, sharingLists.export? = some final ∧ sharingLists.TellsApart final sources
      ∧ (sharingLists.arena.reached sharingLists.root).card = 3
      ∧ (final.facts.withRelation .elem).length + (final.facts.withRelation .empty).length = 7
      ∧ final.numbering.issued = 10 := by
  have hdescends : sharingLists.arena.Descends := .of_nodes (by decide)
  have hclosed := hdescends.closed sharingLists.root_lt
  have hacyclic := hdescends.acyclic 2
  obtain ⟨final, sources, hexport, -, htells⟩ := identifiers_of_sharing _ hclosed hacyclic
  obtain ⟨other, hother, hlevels⟩ := exists_preorder hclosed hacyclic
  obtain rfl := Option.some.inj (hother.symm.trans hexport)
  have hpreorder := (hlevels 3 (Nat.le_refl 3)).1
  have hcount : (Progress.preorder sharingLists.arena 3 sharingLists.root .start).map (fun final =>
      (final.numbering.issued,
        (final.facts.withRelation .elem).length + (final.facts.withRelation .empty).length))
      = some (10, 7) := by
    decide +kernel
  rw [hpreorder] at hcount
  obtain ⟨hissued, hcells⟩ := Prod.mk.inj (Option.some.inj hcount)
  have hcard := htells.issued_eq
  rw [hissued, hcells] at hcard
  exact ⟨other, sources, hexport, htells, by simpa using hcard.symm, hcells, hissued⟩

end Ast

end ScriptFacts
