import ScriptFacts.Arena.Display
import ScriptFacts.Arena.Term
import ScriptFacts.Proofs.Arena.Depth

/-!
# Writing comes through, or breaks off at a handle that leads nowhere

Writing a tree on the way down gives the written form of its term. Whether it comes through depends
on the handles alone: it breaks off where the visit of the same handles does. Without circles a
visit never runs out of levels, so it either passes every handle that is reached, and then all of
them lead to nodes, or it breaks off at one that leads nowhere.

* `Arena.toOption_write`: what is written is the written form of the term.
* `Arena.write_visit`: writing breaks off where the visit does.
* `Arena.visit_of_acyclic`: what comes of a visit, with as many levels as are needed or more.
-/
namespace ScriptFacts

/-! ## Several items -/

section VisitAll

variable {α : Type} {visit visit' : α → Except Interruption Unit}

theorem visitAll_cons (visit : α → Except Interruption Unit) (item : α) (items : List α) :
    visitAll visit (item :: items) = (visit item >>= fun _ => visitAll visit items) := rfl

theorem visitAll_singleton (visit : α → Except Interruption Unit) (item : α) :
    visitAll visit [item] = visit item := by
  rw [visitAll_cons]
  cases visit item <;> rfl

theorem visitAll_append (visit : α → Except Interruption Unit) (items more : List α) :
    visitAll visit (items ++ more)
      = (visitAll visit items >>= fun _ => visitAll visit more) := by
  induction items with
  | nil => rfl
  | cons item items ih =>
    rw [List.cons_append, visitAll_cons, visitAll_cons, ih]
    cases visit item <;> rfl

theorem visitAll_eq_ok_iff {items : List α} :
    visitAll visit items = .ok () ↔ ∀ item ∈ items, visit item = .ok () := by
  induction items with
  | nil => simp [visitAll]
  | cons item items ih =>
    rw [visitAll_cons, List.forall_mem_cons, ← ih]
    cases visit item with
    | error interruption => simp [bind, Except.bind]
    | ok _ => simp [bind, Except.bind]

/-- Visits break off at one of the items. -/
theorem exists_of_visitAll_eq_error {items : List α} {interruption : Interruption}
    (h : visitAll visit items = .error interruption) :
    ∃ item ∈ items, visit item = .error interruption := by
  induction items with
  | nil => cases h
  | cons item items ih =>
    rw [visitAll_cons] at h
    cases hitem : visit item with
    | error other =>
      rw [hitem] at h
      cases h
      exact ⟨item, List.mem_cons_self, hitem⟩
    | ok _ =>
      rw [hitem] at h
      obtain ⟨found, hmem, hfound⟩ := ih h
      exact ⟨found, List.mem_cons_of_mem _ hmem, hfound⟩

/-- Visits that agree wherever levels were left come to the same, if levels were left. -/
theorem visitAll_eq_of_levels {items : List α}
    (hvisit : ∀ item ∈ items, visit item ≠ .error .outOfLevels → visit' item = visit item)
    (h : visitAll visit items ≠ .error .outOfLevels) :
    visitAll visit' items = visitAll visit items := by
  induction items with
  | nil => rfl
  | cons item items ih =>
    obtain ⟨hitem, hitems⟩ := List.forall_mem_cons.mp hvisit
    rw [visitAll_cons] at h
    rw [visitAll_cons, visitAll_cons]
    cases hresult : visit item with
    | error interruption =>
      rw [hresult] at h
      rw [hitem (hresult ▸ h), hresult]
      rfl
    | ok _ =>
      rw [hresult] at h
      rw [hitem (by simp [hresult]), hresult]
      exact ih hitems h

end VisitAll

namespace Arena

variable {arena : Arena}

/-! ## Visits -/

theorem lookUp_eq_ok {handle : Nat} {node : Node} (h : arena.get? handle = some node) :
    arena.lookUp handle = .ok node := by
  rw [lookUp, h]

theorem lookUp_eq_error {handle : Nat} (h : arena.get? handle = none) :
    arena.lookUp handle = .error (.noNode handle) := by
  rw [lookUp, h]

theorem visit_of_get? {handle : Nat} {node : Node} (h : arena.get? handle = some node)
    (levels : Nat) :
    arena.visit (levels + 1) handle = visitAll (arena.visit levels) node.children := by
  rw [visit, lookUp_eq_ok h]
  rfl

theorem visit_of_get?_eq_none {handle : Nat} (h : arena.get? handle = none) (levels : Nat) :
    arena.visit (levels + 1) handle = .error (.noNode handle) := by
  rw [visit, lookUp_eq_error h]
  rfl

/-- A visit comes through exactly if what is below the handle is there and no deeper. -/
theorem visit_eq_ok_iff {levels handle : Nat} :
    arena.visit levels handle = .ok () ↔ arena.Fits levels handle := by
  induction levels generalizing handle with
  | zero => simp [visit, Fits]
  | succ levels ih =>
    cases hnode : arena.get? handle with
    | none => simp [visit_of_get?_eq_none hnode, Fits, hnode]
    | some node => simp [visit_of_get? hnode, visitAll_eq_ok_iff, Fits, hnode, ih]

/-- The handle at which a visit breaks off is reached and leads nowhere. -/
theorem reaches_of_visit {levels handle bad : Nat}
    (h : arena.visit levels handle = .error (.noNode bad)) :
    arena.Reaches handle bad ∧ arena.size ≤ bad := by
  induction levels generalizing handle with
  | zero => cases h
  | succ levels ih =>
    cases hnode : arena.get? handle with
    | none =>
      rw [visit_of_get?_eq_none hnode] at h
      cases h
      exact ⟨.refl _, get?_eq_none_iff.mp hnode⟩
    | some node =>
      rw [visit_of_get? hnode] at h
      obtain ⟨child, hmem, hchild⟩ := exists_of_visitAll_eq_error h
      obtain ⟨hreach, hbad⟩ := ih hchild
      exact ⟨.child ⟨node, hnode, hmem⟩ hreach, hbad⟩

theorem Shallow.visit_ne {levels handle : Nat} (h : arena.Shallow levels handle) :
    arena.visit levels handle ≠ .error .outOfLevels := by
  induction levels generalizing handle with
  | zero => exact h.elim
  | succ levels ih =>
    cases hnode : arena.get? handle with
    | none => simp [visit_of_get?_eq_none hnode]
    | some node =>
      rw [visit_of_get? hnode]
      intro hout
      obtain ⟨child, hmem, hchild⟩ := exists_of_visitAll_eq_error hout
      exact ih (h child ⟨node, hnode, hmem⟩) hchild

/-- More levels change nothing, unless there were too few. -/
theorem visit_mono {levels more handle : Nat} (hle : levels ≤ more)
    (h : arena.visit levels handle ≠ .error .outOfLevels) :
    arena.visit more handle = arena.visit levels handle := by
  induction levels generalizing more handle with
  | zero => exact absurd rfl h
  | succ levels ih =>
    obtain ⟨more, rfl⟩ : ∃ n, more = n + 1 := ⟨more - 1, by omega⟩
    cases hnode : arena.get? handle with
    | none => rw [visit_of_get?_eq_none hnode, visit_of_get?_eq_none hnode]
    | some node =>
      rw [visit_of_get? hnode] at h
      rw [visit_of_get? hnode, visit_of_get? hnode]
      exact visitAll_eq_of_levels (fun child _ hchild => ih (by omega) hchild) h

/-- Without circles below a handle, either all handles below it lead to nodes and any visit with
levels enough comes through, or any such visit breaks off at the same handle that leads nowhere. -/
theorem visit_of_acyclic {handle : Nat} (hacyclic : arena.Acyclic handle) :
    (arena.Closed handle ∧ ∀ levels, arena.size < levels → arena.visit levels handle = .ok ())
      ∨ ∃ bad, arena.Reaches handle bad ∧ arena.size ≤ bad
        ∧ ∀ levels, arena.size < levels → arena.visit levels handle = .error (.noNode bad) := by
  have hlevels := (shallow_of_acyclic hacyclic).visit_ne
  have hmono : ∀ levels, arena.size < levels →
      arena.visit levels handle = arena.visit (arena.size + 1) handle :=
    fun levels hlt => visit_mono hlt hlevels
  cases hvisit : arena.visit (arena.size + 1) handle with
  | ok _ =>
    refine .inl ⟨(visit_eq_ok_iff.mp hvisit).closed, fun levels hlt => ?_⟩
    rw [hmono levels hlt, hvisit]
  | error interruption =>
    cases interruption with
    | outOfLevels => exact absurd hvisit hlevels
    | noNode bad =>
      obtain ⟨hreach, hbad⟩ := reaches_of_visit hvisit
      refine .inr ⟨bad, hreach, hbad, fun levels hlt => ?_⟩
      rw [hmono levels hlt, hvisit]

end Arena

/-! ## Writing and visiting -/

/-- What is written breaks off where the visit does, whatever was written before. -/
def Writer.Follows (write : Writer) (visited : Except Interruption Unit) : Prop :=
  ∀ soFar, (write soFar).map (fun _ => ()) = visited

namespace Writer

/-- Texts may be added before and after. -/
theorem Follows.enclose {write : Writer} {visited : Except Interruption Unit}
    (h : write.Follows visited) (before after : String → String) (soFar : String) :
    Except.map (fun _ => ()) (write (before soFar) >>= fun written => .ok (after written))
      = visited := by
  rw [← h (before soFar)]
  cases write (before soFar) <;> rfl

/-- One writer after another follows one visit after another. -/
theorem Follows.bind {write more : Writer} {visited visited' : Except Interruption Unit}
    (h : write.Follows visited) (hmore : more.Follows visited') (soFar : String) :
    Except.map (fun _ => ()) (write soFar >>= more) = (visited >>= fun _ => visited') := by
  rw [← h soFar]
  cases write soFar with
  | error interruption => rfl
  | ok between => exact hmore between

theorem follows_separate {α : Type} {write : α → Writer} {visit : α → Except Interruption Unit}
    (first : Bool) {items : List α} (h : ∀ item ∈ items, (write item).Follows (visit item)) :
    (separate write first items).Follows (visitAll visit items) := by
  induction items generalizing first with
  | nil => exact fun _ => rfl
  | cons item items ih =>
    obtain ⟨hitem, hitems⟩ := List.forall_mem_cons.mp h
    exact fun soFar => hitem.bind (ih false hitems) _

end Writer

theorem Field.follows_write {child : Nat → Writer} {visit : Nat → Except Interruption Unit}
    (h : ∀ handle, (child handle).Follows (visit handle)) (field : Field Nat) :
    (field.write child).Follows (visitAll visit field.handles) := by
  cases field with
  | digits written | text written => exact fun _ => rfl
  | child handle =>
    rw [Field.handles, visitAll_singleton]
    exact h handle
  | children handles =>
    exact (Writer.follows_separate true fun handle _ => h handle).enclose (· ++ "[") (· ++ "]")

theorem visitAll_flatMap {α : Type} (visit : α → Except Interruption Unit)
    {β : Type} (parts : β → List α) (items : List β) :
    visitAll (fun item => visitAll visit (parts item)) items
      = visitAll visit (items.flatMap parts) := by
  induction items with
  | nil => rfl
  | cons item items ih => rw [List.flatMap_cons, visitAll_append, visitAll_cons, ih]

/-- Writing breaks off where the visit of the same handles does. -/
theorem Arena.write_visit (arena : Arena) (levels handle : Nat) :
    (arena.write levels handle).Follows (arena.visit levels handle) := by
  induction levels generalizing handle with
  | zero => exact fun _ => rfl
  | succ levels ih =>
    intro soFar
    cases hnode : arena.get? handle with
    | none =>
      rw [visit_of_get?_eq_none hnode, Arena.write, lookUp_eq_error hnode]
      rfl
    | some node =>
      have hfields := Writer.follows_separate true fun field (_ : field ∈ node.fields) =>
        Field.follows_write (fun handle => ih handle) field
      have hnode' := hfields.enclose (· ++ node.kind.name ++ "(") (· ++ ")") soFar
      rw [visit_of_get? hnode, Node.children, ← visitAll_flatMap, Arena.write, lookUp_eq_ok hnode]
      exact hnode'

/-! ## Writing and rendering -/

/-- What is written is a text, if there is one, after whatever was written before. -/
def Writer.Writes (write : Writer) (text? : Option String) : Prop :=
  ∀ soFar, (write soFar).toOption = text?.map (soFar ++ ·)

theorem toOption_bind {α β : Type} (result : Except Interruption α)
    (next : α → Except Interruption β) :
    (result >>= next).toOption = result.toOption.bind fun value => (next value).toOption := by
  cases result <;> rfl

section Separate

variable {α : Type} {write : α → Writer} {term? : α → Option Term}

theorem Writer.writes_more {items : List α}
    (h : ∀ item ∈ items, (write item).Writes ((term? item).map Term.render)) :
    (separate write false items).Writes ((items.mapM term?).map Term.renderMore) := by
  induction items with
  | nil => exact fun soFar => by simp [separate, Except.toOption, Term.renderMore]
  | cons item items ih =>
    obtain ⟨hitem, hitems⟩ := List.forall_mem_cons.mp h
    intro soFar
    show (write item (soFar ++ ",") >>= separate write false items).toOption = _
    rw [toOption_bind, hitem (soFar ++ ","), List.mapM_cons]
    simp only [ih hitems _]
    cases term? item with
    | none => rfl
    | some term =>
      cases items.mapM term? with
      | none => rfl
      | some terms => simp [Term.renderMore, String.append_assoc]

theorem Writer.writes_all {items : List α}
    (h : ∀ item ∈ items, (write item).Writes ((term? item).map Term.render)) :
    (separate write true items).Writes ((items.mapM term?).map Term.renderAll) := by
  cases items with
  | nil => exact fun soFar => by simp [separate, Except.toOption, Term.renderAll]
  | cons item items =>
    obtain ⟨hitem, hitems⟩ := List.forall_mem_cons.mp h
    intro soFar
    show (write item soFar >>= separate write false items).toOption = _
    rw [toOption_bind, hitem soFar, List.mapM_cons]
    simp only [Writer.writes_more hitems _]
    cases term? item with
    | none => rfl
    | some term =>
      cases items.mapM term? with
      | none => rfl
      | some terms => simp [Term.renderAll, String.append_assoc]

end Separate

theorem Field.writes {child : Nat → Writer} {term? : Nat → Option Term}
    (h : ∀ handle, (child handle).Writes ((term? handle).map Term.render)) (field : Field Nat) :
    (field.write child).Writes ((Term.ofField? term? field).map Term.render) := by
  intro soFar
  cases field with
  | digits written => simp [Field.write, Term.ofField?, Term.render, Except.toOption]
  | text written =>
    simp [Field.write, Term.ofField?, Term.render, Except.toOption, String.append_assoc]
  | child handle => exact h handle soFar
  | children handles =>
    show (Writer.separate child true handles (soFar ++ "[") >>= fun written =>
      .ok (written ++ "]")).toOption = _
    rw [toOption_bind, Writer.writes_all (fun handle _ => h handle) (soFar ++ "["), Term.ofField?]
    cases handles.mapM term? with
    | none => rfl
    | some terms => simp [Term.render, Except.toOption, String.append_assoc]

/-- What is written of a tree is the written form of its term. -/
theorem Arena.toOption_write (arena : Arena) (levels handle : Nat) :
    (arena.write levels handle).Writes ((arena.termWithin? levels handle).map Term.render) := by
  induction levels generalizing handle with
  | zero => exact fun _ => rfl
  | succ levels ih =>
    intro soFar
    rw [Arena.write, Arena.termWithin?]
    cases hnode : arena.get? handle with
    | none =>
      rw [lookUp_eq_error hnode]
      rfl
    | some node =>
      have hfields := Writer.writes_all fun field (_ : field ∈ node.fields) =>
        Field.writes (fun handle => ih handle) field
      rw [lookUp_eq_ok hnode]
      show (Writer.separate (Field.write (arena.write levels)) true node.fields
        (soFar ++ node.kind.name ++ "(") >>= fun written => .ok (written ++ ")")).toOption
        = ((node.fields.mapM (Term.ofField? (arena.termWithin? levels)) >>= fun fields =>
          some (.node node.kind fields)).map Term.render).map _
      rw [toOption_bind, hfields]
      cases node.fields.mapM (Term.ofField? (arena.termWithin? levels)) with
      | none => rfl
      | some fields => simp [Term.render, Except.toOption, String.append_assoc]

end ScriptFacts
