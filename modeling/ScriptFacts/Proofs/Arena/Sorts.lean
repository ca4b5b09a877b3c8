import ScriptFacts.Proofs.Arena.Postorder
import ScriptFacts.Proofs.Program.RoundTrip

/-!
# Programs are well-sorted

An arena has one type of nodes and one type of handles, so only the way in which handles are passed
on keeps statements out of the places of expressions. They are kept out: in the program of a text,
every field of every node holds what the signature of its kind asks for, and the root is a
statement.

The leaves come from tokens, and a token that was cut from a text can be written; what a tree was
derived from can be written only if all its leaves can. The handles come from laying the tree out.
Nodes are laid out on top of an arena that only grows, and a handle that leads to a node leads to it
in every larger arena (`Sorted`).

* `Expr.Derives.writable`, `Stmt.Derives.writable`: trees of writable tokens have writable leaves.
* `Expr.sorted`, `Stmt.sorted`: laying out such a tree adds nodes that keep to their signatures.
* `Ast.wellSorted_ofText`: the program of a text is well-sorted.
-/
namespace ScriptFacts

/-! ## Leaves -/

/-- The numeral of a number has no zero in front, unless it is zero. -/
theorem Leaf.admits_repr (value : Nat) : Leaf.numeral.Admits value.repr := by
  have hdigits : ∀ c ∈ value.repr.toList, c.isDigit = true := by
    rw [Nat.toList_repr]
    exact fun c hc => Nat.isDigit_of_mem_toDigits (by decide) (by decide) hc
  have hnumeral : value.repr.toList = ScriptFacts.numeral value.repr.toList := by
    rw [← toList_repr_ofDigitChars hdigits]
    simp only [Nat.toList_repr, Nat.ofDigitChars_ten_toDigits]
  refine ⟨?_, hdigits, fun hzero => ?_⟩
  · intro hempty
    rw [hempty] at hnumeral
    simp [ScriptFacts.numeral] at hnumeral
  · unfold ScriptFacts.numeral at hnumeral
    split at hnumeral
    · exact String.toList_inj.mp hnumeral
    · -- What is left when zeros are dropped does not begin with one.
      rw [hnumeral] at hzero
      have hhead := List.head?_dropWhile_not (· == '0') value.repr.toList
      rw [hzero] at hhead
      simp at hhead

theorem Leaf.admits_spelling (op : BinaryOp) : Leaf.operator.Admits op.spelling := by
  cases op <;> simp [Leaf.Admits, BinaryOp.spelling]

theorem Leaf.admits_name {name : String} (h : (Token.name name).Writable) :
    Leaf.name.Admits name := h.spells

/-! ## Trees of writable tokens -/

mutual

theorem Expr.Derives.writable {layer : Layer} {depth : Nat} {tokens : List Token} {expr : Expr} :
    Expr.Derives layer depth tokens expr → AllWritable tokens → AllWritable expr.tokens
  | .exp inner, h => inner.writable h
  | .operand inner, h => inner.writable h
  | .binary op hleft hright, h => by
    simp only [AllWritable.append, AllWritable.cons] at h
    simp [Expr.tokens, hleft.writable h.1, hright.writable h.2.2]
  | .not inner, h => by
    simp only [AllWritable.cons] at h
    simp [Expr.tokens, inner.writable h.2]
  | .comparison inner, h => inner.writable h
  | .index hbase hposition, h => by
    simp only [AllWritable.append, AllWritable.cons] at h
    simp [Expr.tokens, hbase.writable h.1.1, hposition.writable h.1.2.2]
  | .atom inner, h => inner.writable h
  | .parenthesized inner, h => by
    simp only [AllWritable.append, AllWritable.cons] at h
    exact inner.writable h.1.2
  | .int value, h => h
  | .string text, h => h
  | .var name, h => h
  | .array inner, h => by
    simp only [AllWritable.append, AllWritable.cons] at h
    simpa [Expr.tokens] using inner.writable h.1.2

theorem Expr.DerivesList.writable {depth : Nat} {tokens : List Token} {exprs : List Expr} :
    Expr.DerivesList depth tokens exprs → AllWritable tokens →
      ∀ item ∈ Expr.tokensAll exprs, AllWritable item
  | .empty, _ => by simp [Expr.tokensAll]
  | .some inner, h => inner.writable h

theorem Expr.DerivesItems.writable {depth : Nat} {tokens : List Token} {exprs : List Expr} :
    Expr.DerivesItems depth tokens exprs → AllWritable tokens →
      ∀ item ∈ Expr.tokensAll exprs, AllWritable item
  | .one inner, h => by simpa [Expr.tokensAll] using inner.writable h
  | .more hfirst hrest, h => by
    simp only [AllWritable.append, AllWritable.cons] at h
    rw [Expr.tokensAll]
    exact List.forall_mem_cons.mpr ⟨hfirst.writable h.1, hrest.writable h.2.2⟩

end

mutual

/-- A statement that was derived from writable tokens has writable tokens, however it is printed. -/
theorem Stmt.Derives.writable {depth : Nat} {tokens : List Token} {stmt : Stmt} :
    Stmt.Derives depth tokens stmt → AllWritable tokens → AllWritable stmt.tokens
  | .print hvalue, h => by
    simp only [AllWritable.append, AllWritable.cons] at h
    simp [Stmt.tokens, hvalue.writable h.1.2]
  | .assign htarget hvalue, h => by
    simp only [AllWritable.append, AllWritable.cons] at h
    simp [Stmt.tokens, htarget.writable h.1.1, hvalue.writable h.1.2.2]
  | .block hbody, h => by
    simp only [AllWritable.append, AllWritable.cons] at h
    simp [Stmt.tokens, hbody.writable h.1.2]
  | .cond hcondition hbody, h => by
    simp only [AllWritable.append, AllWritable.cons] at h
    simp [Stmt.tokens, hcondition.writable h.1.2.2, hbody.writable h.2.2]
  | .loop hcondition hbody, h => by
    simp only [AllWritable.append, AllWritable.cons] at h
    simp [Stmt.tokens, hcondition.writable h.1.2.2, hbody.writable h.2.2]
  | .proc name hparameters hbody, h => by
    simp only [AllWritable.append, AllWritable.cons] at h
    simpa [Stmt.tokens, h.1.2.1, hbody.writable h.2.2] using hparameters.writable h.1.2.2.2
  | .call name harguments, h => by
    simp only [AllWritable.append, AllWritable.cons] at h
    simpa [Stmt.tokens, h.1.1] using harguments.writable h.1.2.2

theorem Stmt.DerivesAll.writable {depth : Nat} {tokens : List Token} {body : List Stmt} :
    Stmt.DerivesAll depth tokens body → AllWritable tokens → AllWritable (Stmt.tokensAll body)
  | .nil, _ => .nil
  | .cons hfirst hrest, h => by
    rw [AllWritable.append] at h
    exact AllWritable.append.mpr ⟨hfirst.writable h.1, hrest.writable h.2⟩

end

/-! ## Growing arenas -/

namespace Arena

variable {arena larger : Arena}

theorem LeadsTo.of_extends {phrase : Phrase} {handle : Nat} (hgrows : arena.Extends larger)
    (h : arena.LeadsTo phrase handle) : larger.LeadsTo phrase handle := by
  obtain ⟨node, hnode, hphrase⟩ := h
  exact ⟨node, hgrows.get? hnode, hphrase⟩

theorem LeadsTo.push (arena : Arena) (node : Node) :
    (arena.push node).2.LeadsTo node.kind.phrase (arena.push node).1 :=
  ⟨node, by rw [get?_push]; simp [Arena.push], rfl⟩

theorem WellSorted.empty : Arena.empty.WellSorted := by
  intro handle node hnode
  simp [Arena.empty, get?] at hnode

end Arena

theorem Field.suits_child_iff {arena : Arena} {phrase : Phrase} {handle : Nat} :
    (Field.child handle).Suits arena (.one phrase) ↔ arena.LeadsTo phrase handle :=
  ⟨fun h => by cases h; assumption, .child⟩

theorem Field.suits_children_iff {arena : Arena} {phrase : Phrase} {handles : List Nat} :
    (Field.children handles).Suits arena (.many phrase)
      ↔ ∀ handle ∈ handles, arena.LeadsTo phrase handle :=
  ⟨fun h => by cases h; assumption, .children⟩

theorem Field.Suits.of_extends {arena larger : Arena} {sort : FieldSort} {field : Field Nat}
    (hgrows : arena.Extends larger) (h : field.Suits arena sort) : field.Suits larger sort := by
  cases h with
  | digits htext => exact .digits htext
  | text hleaf htext => exact .text hleaf htext
  | child hhandle => exact .child (hhandle.of_extends hgrows)
  | children hhandles =>
    exact .children fun handle hmem => (hhandles handle hmem).of_extends hgrows

theorem Arena.WellSorted.push {arena : Arena} {node : Node} (h : arena.WellSorted)
    (hnode : List.Forall₂ (Field.Suits arena) node.kind.signature node.fields) :
    (arena.push node).2.WellSorted := by
  intro handle found hfound
  have hgrows {sort : FieldSort} {field : Field Nat} :
      field.Suits arena sort → field.Suits (arena.push node).2 sort :=
    Field.Suits.of_extends (.push arena node)
  rw [get?_push] at hfound
  by_cases hlast : handle = arena.size
  · rw [if_pos hlast] at hfound
    obtain rfl := Option.some.inj hfound
    exact hnode.imp fun _ _ => hgrows
  · rw [if_neg hlast] at hfound
    exact (h handle found hfound).imp fun _ _ => hgrows

/-- Between two states of an arena, nodes that keep to their signatures were added, and the fields
hold what the sorts ask for. -/
structure Sorted (before after : Arena) (sorts : List FieldSort) (fields : List (Field Nat)) :
    Prop where
  grows : before.Extends after
  wellSorted : before.WellSorted → after.WellSorted
  suits : List.Forall₂ (Field.Suits after) sorts fields

namespace Sorted

theorem text (arena : Arena) {leaf : Leaf} {text : String} (hleaf : leaf ≠ .numeral)
    (htext : leaf.Admits text) : Sorted arena arena [.leaf leaf] [.text text] :=
  ⟨.refl arena, id, .cons (.text hleaf htext) .nil⟩

theorem digits (arena : Arena) (value : Nat) :
    Sorted arena arena [.leaf .numeral] [.digits value.repr] :=
  ⟨.refl arena, id, .cons (.digits (Leaf.admits_repr value)) .nil⟩

/-- Fields laid out one after the other. -/
theorem append {before between after : Arena} {sorts more : List FieldSort}
    {firsts seconds : List (Field Nat)} (hfirst : Sorted before between sorts firsts)
    (hsecond : Sorted between after more seconds) :
    Sorted before after (sorts ++ more) (firsts ++ seconds) where
  grows := hfirst.grows.trans hsecond.grows
  wellSorted := fun h => hsecond.wellSorted (hfirst.wellSorted h)
  suits := List.rel_append
    (hfirst.suits.imp fun _ _ => Field.Suits.of_extends hsecond.grows) hsecond.suits

/-- A node on top of its fields leads to a phrase of its kind. -/
theorem push {before after : Arena} {node : Node}
    (h : Sorted before after node.kind.signature node.fields) :
    Sorted before (after.push node).2 [.one node.kind.phrase] [.child (after.push node).1] where
  grows := h.grows.trans (.push after node)
  wellSorted := fun hbefore => (h.wellSorted hbefore).push h.suits
  suits := .cons (.child (.push after node)) .nil

theorem children_nil (arena : Arena) (phrase : Phrase) :
    Sorted arena arena [.many phrase] [.children []] :=
  ⟨.refl arena, id, .cons (.children (by simp)) .nil⟩

theorem children_cons {before between after : Arena} {phrase : Phrase} {handle : Nat}
    {handles : List Nat} (hfirst : Sorted before between [.one phrase] [.child handle])
    (hmore : Sorted between after [.many phrase] [.children handles]) :
    Sorted before after [.many phrase] [.children (handle :: handles)] where
  grows := hfirst.grows.trans hmore.grows
  wellSorted := fun h => hmore.wellSorted (hfirst.wellSorted h)
  suits := by
    obtain _ | ⟨hhandle, -⟩ := hfirst.suits
    obtain _ | ⟨hhandles, -⟩ := hmore.suits
    rw [Field.suits_child_iff] at hhandle
    rw [Field.suits_children_iff] at hhandles
    have hall := List.forall_mem_cons.mpr ⟨hhandle.of_extends hmore.grows, hhandles⟩
    exact .cons (.children hall) .nil

end Sorted

/-! ## Laying out -/

mutual

theorem Expr.sorted : (expr : Expr) → (arena : Arena) → AllWritable expr.tokens →
    Sorted arena (expr.layOut arena).2 [.one .expr] [.child (expr.layOut arena).1]
  | .var name, arena, h => by
    simp only [tokens, AllWritable.cons] at h
    exact .push (.text arena (by decide) (Leaf.admits_name h.1))
  | .int value, arena, _ => .push (.digits arena value)
  | .string text, arena, h => by
    simp only [tokens, AllWritable.cons] at h
    have htext : Leaf.string.Admits text := h.1
    exact .push (.text arena (by decide) htext)
  | .array elements, arena, h => by
    simp only [tokens, AllWritable.append, AllWritable.cons, AllWritable.separate] at h
    exact .push (sortedAll elements arena h.1.2)
  | .index base position, arena, h => by
    simp only [tokens, AllWritable.append, AllWritable.cons, AllWritable.operandTokens] at h
    exact .push (.append (base.sorted arena h.1.1) (position.sorted _ h.1.2.2))
  | .binary left op right, arena, h => by
    simp only [tokens, AllWritable.append, AllWritable.cons, AllWritable.operandTokens] at h
    have hop := Sorted.text (left.layOut arena).2 (by decide) (Leaf.admits_spelling op)
    exact .push (.append (left.sorted arena h.1) (.append hop (right.sorted _ h.2.2)))
  | .not operand, arena, h => by
    simp only [tokens, AllWritable.cons, AllWritable.operandTokens] at h
    have hnot : Leaf.negation.Admits "not" := rfl
    have hnot := Sorted.text arena (by decide) hnot
    exact .push (.append hnot (operand.sorted arena h.2))

theorem Expr.sortedAll : (exprs : List Expr) → (arena : Arena) →
    (∀ item ∈ Expr.tokensAll exprs, AllWritable item) →
      Sorted arena (Expr.layOutAll exprs arena).2 [.many .expr]
        [.children (Expr.layOutAll exprs arena).1]
  | [], arena, _ => .children_nil arena .expr
  | expr :: exprs, arena, h => by
    rw [tokensAll] at h
    obtain ⟨hfirst, hmore⟩ := List.forall_mem_cons.mp h
    exact .children_cons (expr.sorted arena hfirst) (sortedAll exprs _ hmore)

end

mutual

/-- Wherever a statement with writable leaves is laid out, its nodes keep to their signatures. -/
theorem Stmt.sorted : (stmt : Stmt) → (arena : Arena) → AllWritable stmt.tokens →
    Sorted arena (stmt.layOut arena).2 [.one .stmt] [.child (stmt.layOut arena).1]
  | .print value, arena, h => by
    simp only [tokens, AllWritable.append, AllWritable.cons] at h
    exact .push (value.sorted arena h.1.2)
  | .assign target value, arena, h => by
    simp only [tokens, AllWritable.append, AllWritable.cons] at h
    exact .push (.append (target.sorted arena h.1.1) (value.sorted _ h.1.2.2))
  | .block body, arena, h => by
    simp only [tokens, AllWritable.append, AllWritable.cons] at h
    exact .push (sortedAll body arena h.1.2)
  | .cond condition body, arena, h => by
    simp only [tokens, AllWritable.append, AllWritable.cons, AllWritable.parenthesize] at h
    exact .push (.append (condition.sorted arena h.1.2) (body.sorted _ h.2))
  | .loop condition body, arena, h => by
    simp only [tokens, AllWritable.append, AllWritable.cons, AllWritable.parenthesize] at h
    exact .push (.append (condition.sorted arena h.1.2) (body.sorted _ h.2))
  | .proc name parameters body, arena, h => by
    simp only [tokens, AllWritable.append, AllWritable.cons, AllWritable.parenthesize,
      AllWritable.separate] at h
    have hname := Sorted.text arena (by decide) (Leaf.admits_name h.1.2.1)
    have hparameters := Expr.sortedAll parameters arena h.1.2.2
    exact .push (.append hname (.append hparameters (body.sorted _ h.2)))
  | .call name arguments, arena, h => by
    simp only [tokens, AllWritable.append, AllWritable.cons, AllWritable.parenthesize,
      AllWritable.separate] at h
    have hname := Sorted.text arena (by decide) (Leaf.admits_name h.1.1)
    exact .push (.append hname (Expr.sortedAll arguments arena h.1.2))

theorem Stmt.sortedAll : (stmts : List Stmt) → (arena : Arena) →
    AllWritable (Stmt.tokensAll stmts) →
      Sorted arena (Stmt.layOutAll stmts arena).2 [.many .stmt]
        [.children (Stmt.layOutAll stmts arena).1]
  | [], arena, _ => .children_nil arena .stmt
  | stmt :: stmts, arena, h => by
    rw [tokensAll, AllWritable.append] at h
    exact .children_cons (stmt.sorted arena h.1) (sortedAll stmts _ h.2)

end

theorem Stmt.wellSorted_toAst {stmt : Stmt} (h : AllWritable stmt.tokens) :
    stmt.toAst.arena.WellSorted ∧ stmt.toAst.rootNode.kind.phrase = .stmt := by
  have hsorted := stmt.sorted .empty h
  refine ⟨hsorted.wellSorted .empty, ?_⟩
  obtain _ | ⟨hhandle, -⟩ := hsorted.suits
  obtain ⟨node, hnode, hphrase⟩ := Field.suits_child_iff.mp hhandle
  have hroot : stmt.toAst.arena.get? stmt.toAst.root = some node := hnode
  rw [Ast.get?_root] at hroot
  rwa [Option.some.inj hroot]

/-- In the program of a text, every child is a phrase of the sort that its place asks for, every
text in a node is of the sort that its field asks for, and the root is a statement. -/
theorem Ast.wellSorted_ofText (limit : Nat) (text : List Char) (ast : Ast)
    (h : (Stmt.ofText limit text).map Stmt.toAst = .ok ast) :
    Ast.ofText limit text = .ok ast
      ∧ (∀ handle node, ast.arena.get? handle = some node →
        List.Forall₂ (Field.Suits ast.arena) node.kind.signature node.fields)
      ∧ ast.rootNode.kind.phrase = .stmt := by
  have hbuilt : Ast.ofText limit text = .ok ast := (Ast.ofText_eq limit text).trans h
  cases hread : Stmt.ofText limit text with
  | error error => simp [hread, Except.map] at h
  | ok stmt =>
    rw [hread] at h
    obtain rfl := Except.ok.inj h
    obtain ⟨stream, hstream, hderives⟩ := Stmt.ofText_eq_ok_iff.mp hread
    have hwritable := hderives.writable (TokenStream.writable_of_ofText hstream)
    exact ⟨hbuilt, Stmt.wellSorted_toAst hwritable⟩

/-- In `def f(x) y[007] = "#" + z;` the body is a statement, its target is an expression that is no
name, the integer has lost its zeros and the string has lost its quotes. -/
theorem Ast.wellSorted_ofText_procedure :
    ∃ ast, (Stmt.ofText 5 "def f(x) y[007] = \"#\" + z;".toList).map Stmt.toAst = .ok ast
      ∧ ast.arena.nodes = #[.var "x", .var "y", .int "7", .index 1 2, .string "#", .var "z",
        .binary 4 "+" 5, .assign 3 6, .proc "f" [0] 7]
      ∧ ast.arena.LeadsTo .stmt 7 ∧ ast.arena.LeadsTo .expr 3 := by
  have hstream : TokenStream.ofText "def f(x) y[007] = \"#\" + z;".toList = .ok
      ⟨[⟨.keyword .proc, ⟨1, 1⟩⟩, ⟨.name "f", ⟨1, 5⟩⟩, ⟨.symbol .openParen, ⟨1, 6⟩⟩,
        ⟨.name "x", ⟨1, 7⟩⟩, ⟨.symbol .closeParen, ⟨1, 8⟩⟩, ⟨.name "y", ⟨1, 10⟩⟩,
        ⟨.symbol .openBracket, ⟨1, 11⟩⟩, ⟨.int 7, ⟨1, 12⟩⟩, ⟨.symbol .closeBracket, ⟨1, 15⟩⟩,
        ⟨.symbol .equals, ⟨1, 17⟩⟩, ⟨.string "#", ⟨1, 19⟩⟩, ⟨.symbol .plus, ⟨1, 23⟩⟩,
        ⟨.name "z", ⟨1, 25⟩⟩, ⟨.symbol .semicolon, ⟨1, 26⟩⟩], ⟨1, 27⟩⟩ :=
    TokenStream.ofText_of_toOption (by decide +kernel)
  let stmt : Stmt := .proc "f" [.var "x"] (.assign (.index (.var "y") (.int 7))
    (.binary (.string "#") .add (.var "z")))
  have hread : Stmt.ofText 5 "def f(x) y[007] = \"#\" + z;".toList = .ok stmt := by
    rw [Stmt.ofText_of_stream hstream]
    rfl
  have hast : (Stmt.ofText 5 "def f(x) y[007] = \"#\" + z;".toList).map Stmt.toAst
      = .ok stmt.toAst := by
    rw [hread]
    rfl
  obtain ⟨-, hnodes, -⟩ := Ast.wellSorted_ofText 5 _ _ hast
  obtain _ | ⟨-, _ | ⟨-, _ | ⟨hbody, -⟩⟩⟩ := hnodes 8 (.proc "f" [0] 7) (by decide)
  obtain _ | ⟨htarget, -⟩ := hnodes 7 (.assign 3 6) (by decide)
  exact ⟨stmt.toAst, hast, by decide, Field.suits_child_iff.mp hbody,
    Field.suits_child_iff.mp htarget⟩

end ScriptFacts
