import Mathlib.Data.List.Forall2
import ScriptFacts.Arena.Signature
import ScriptFacts.Proofs.Program.ExactGrammar
import ScriptFacts.Proofs.Token.Written

/-!
# Printed trees are read back

Every tree that keeps to the signatures is the tree of a script: of the one that is printed for it.
As many levels of nesting as there are tokens are enough, because a level is used only where a token
is passed: a statement and a `not` begin with one, and an expression that is not an atom stands in
parentheses wherever an operand is wanted.

* `Expr.readsBack`, `Stmt.derives_tokens`: a tree is derived from its printed tokens.
* `Term.Fits.denotes`: a term that keeps to the signatures is the term of a tree with a text.
* `Stmt.ofText_write`: the text that is printed for it is read back to it.
-/
namespace ScriptFacts

/-! ## Derivations of printed tokens -/

/-- An expression is derived from its tokens, whole and as an operand, by as many levels as there
are tokens. An operand takes no level itself, so it has one to spare. -/
structure Expr.ReadsBack (expr : Expr) : Prop where
  whole : ∀ depth, expr.tokens.length ≤ depth → Expr.Derives .exp depth expr.tokens expr
  operand : ∀ depth, expr.operandTokens.length ≤ depth + 1 →
    Expr.Derives .atom depth expr.operandTokens expr

theorem Expr.length_operandTokens_pos (expr : Expr) : 0 < expr.operandTokens.length := by
  cases expr <;> simp [operandTokens, parenthesize]

theorem Expr.length_tokens_pos (expr : Expr) : 0 < expr.tokens.length := by
  apply List.length_pos_iff.mpr
  cases expr <;> simp [tokens]

/-- An atom is printed as it is. -/
theorem Expr.ReadsBack.of_atom {expr : Expr} (hatom : expr.isAtom = true)
    (h : ∀ depth, expr.tokens.length ≤ depth + 1 → Expr.Derives .atom depth expr.tokens expr) :
    expr.ReadsBack where
  whole := by
    intro depth hdepth
    obtain ⟨depth, rfl⟩ : ∃ n, depth = n + 1 := by
      have hpos := expr.length_tokens_pos
      exact ⟨depth - 1, by omega⟩
    exact .of_atom (h depth hdepth)
  operand := by
    rw [Expr.operandTokens_eq, if_pos hatom]
    exact h

/-- Any other expression is printed between parentheses, and their tokens count. -/
theorem Expr.ReadsBack.of_compound {expr : Expr} (hcompound : expr.isAtom = false)
    (h : ∀ depth, expr.tokens.length ≤ depth → Expr.Derives .exp depth expr.tokens expr) :
    expr.ReadsBack where
  whole := h
  operand := by
    rw [Expr.operandTokens_eq, hcompound]
    intro depth hdepth
    simp only [parenthesize, Bool.false_eq_true, if_false, List.cons_append, List.length_cons,
      List.length_append, List.length_nil] at hdepth
    exact .parenthesized (h depth (by omega))

theorem Expr.DerivesList.of_items {depth : Nat} {exprs : List Expr}
    (h : exprs ≠ [] → Expr.DerivesItems depth (separate (Expr.tokensAll exprs)) exprs) :
    Expr.DerivesList depth (separate (Expr.tokensAll exprs)) exprs := by
  cases exprs with
  | nil => exact .empty
  | cons expr exprs => exact .some (h (List.cons_ne_nil expr exprs))

mutual

theorem Expr.readsBack : (expr : Expr) → expr.ReadsBack
  | .var name => .of_atom rfl fun _ _ => .var name
  | .int value => .of_atom rfl fun _ _ => .int value
  | .string text => .of_atom rfl fun _ _ => .string text
  | .array elements => .of_atom rfl fun depth hdepth => by
    simp only [tokens, List.length_append, List.length_cons, List.length_nil] at hdepth
    exact .array (.of_items fun hne => derivesItems elements hne depth (by omega))
  | .index base position => .of_compound rfl fun depth hdepth => by
    simp only [tokens, List.length_append, List.length_cons, List.length_nil] at hdepth
    obtain ⟨depth, rfl⟩ : ∃ n, depth = n + 1 := ⟨depth - 1, by omega⟩
    have hbase := base.readsBack.operand depth (by omega)
    have hposition := position.readsBack.whole depth (by omega)
    have hindex := Expr.Derives.index (.atom hbase) hposition
    have hproduct : Expr.Derives (.operators .product) depth _ _ := .operand hindex
    exact .exp hproduct.of_operators
  | .binary left op right => .of_compound rfl fun depth hdepth => by
    simp only [tokens, List.length_append, List.length_cons] at hdepth
    obtain ⟨depth, rfl⟩ : ∃ n, depth = n + 1 := ⟨depth - 1, by omega⟩
    have hleft := left.readsBack.operand depth (by omega)
    have hright := right.readsBack.operand depth (by omega)
    have hbinary := Expr.Derives.binary op (.operand hleft.operand_of_atom) hright.operand_of_atom
    exact .exp hbinary.of_operators
  | .not operand => .of_compound rfl fun depth hdepth => by
    have hpos := operand.length_operandTokens_pos
    simp only [tokens, List.length_cons] at hdepth
    obtain ⟨depth, rfl⟩ : ∃ n, depth = n + 2 := ⟨depth - 2, by omega⟩
    have hoperand := operand.readsBack.operand depth (by omega)
    have hnegation : Expr.Derives Level.conjunction.operand depth _ _ := hoperand.operand_of_atom
    have hconjunction : Expr.Derives (.operators .conjunction) (depth + 1) _ _ :=
      .operand (.not hnegation)
    exact .exp hconjunction.of_operators

theorem Expr.derivesItems : (exprs : List Expr) → exprs ≠ [] → (depth : Nat) →
    (separate (Expr.tokensAll exprs)).length ≤ depth →
      Expr.DerivesItems depth (separate (Expr.tokensAll exprs)) exprs
  | [], hne, _, _ => absurd rfl hne
  | [first], _, depth, hdepth => .one (first.readsBack.whole depth hdepth)
  | first :: second :: more, _, depth, hdepth => by
    have hlength : first.tokens.length
        + ((separate (Expr.tokensAll (second :: more))).length + 1) ≤ depth := by
      simpa [separate, Expr.tokensAll] using hdepth
    have hfirst := first.readsBack.whole depth (by omega)
    have hmore := derivesItems (second :: more) (by simp) depth (by omega)
    exact .more hfirst hmore

end

theorem Expr.derivesList (exprs : List Expr) (depth : Nat)
    (hdepth : (separate (Expr.tokensAll exprs)).length ≤ depth) :
    Expr.DerivesList depth (separate (Expr.tokensAll exprs)) exprs :=
  .of_items fun hne => Expr.derivesItems exprs hne depth hdepth

mutual

/-- A statement is derived from its tokens, by as many levels as there are tokens. -/
theorem Stmt.derives_tokens : (stmt : Stmt) → (depth : Nat) → stmt.tokens.length ≤ depth →
    Stmt.Derives depth stmt.tokens stmt
  | .print value, depth, hdepth => by
    simp only [tokens, List.length_append, List.length_cons, List.length_nil] at hdepth
    obtain ⟨depth, rfl⟩ : ∃ n, depth = n + 1 := ⟨depth - 1, by omega⟩
    exact .print (value.readsBack.whole depth (by omega))
  | .assign target value, depth, hdepth => by
    simp only [tokens, List.length_append, List.length_cons, List.length_nil] at hdepth
    obtain ⟨depth, rfl⟩ : ∃ n, depth = n + 1 := ⟨depth - 1, by omega⟩
    have htarget := target.readsBack.whole depth (by omega)
    have hvalue := value.readsBack.whole depth (by omega)
    exact .assign htarget hvalue
  | .block body, depth, hdepth => by
    simp only [tokens, List.length_append, List.length_cons, List.length_nil] at hdepth
    obtain ⟨depth, rfl⟩ : ∃ n, depth = n + 1 := ⟨depth - 1, by omega⟩
    exact .block (derivesAll body depth (by omega))
  | .cond condition body, depth, hdepth => by
    simp only [tokens, parenthesize, List.length_append, List.length_cons,
      List.length_nil] at hdepth
    obtain ⟨depth, rfl⟩ : ∃ n, depth = n + 1 := ⟨depth - 1, by omega⟩
    have hcondition := condition.readsBack.whole depth (by omega)
    have hbody := derives_tokens body depth (by omega)
    simpa [tokens, parenthesize] using Stmt.Derives.cond hcondition hbody
  | .loop condition body, depth, hdepth => by
    simp only [tokens, parenthesize, List.length_append, List.length_cons,
      List.length_nil] at hdepth
    obtain ⟨depth, rfl⟩ : ∃ n, depth = n + 1 := ⟨depth - 1, by omega⟩
    have hcondition := condition.readsBack.whole depth (by omega)
    have hbody := derives_tokens body depth (by omega)
    simpa [tokens, parenthesize] using Stmt.Derives.loop hcondition hbody
  | .proc name parameters body, depth, hdepth => by
    simp only [tokens, parenthesize, List.length_append, List.length_cons,
      List.length_nil] at hdepth
    obtain ⟨depth, rfl⟩ : ∃ n, depth = n + 1 := ⟨depth - 1, by omega⟩
    have hparameters := Expr.derivesList parameters depth (by omega)
    have hbody := derives_tokens body depth (by omega)
    simpa [tokens, parenthesize] using Stmt.Derives.proc name hparameters hbody
  | .call name arguments, depth, hdepth => by
    simp only [tokens, parenthesize, List.length_append, List.length_cons,
      List.length_nil] at hdepth
    obtain ⟨depth, rfl⟩ : ∃ n, depth = n + 1 := ⟨depth - 1, by omega⟩
    have harguments := Expr.derivesList arguments depth (by omega)
    simpa [tokens, parenthesize] using Stmt.Derives.call name harguments

theorem Stmt.derivesAll : (stmts : List Stmt) → (depth : Nat) →
    (Stmt.tokensAll stmts).length ≤ depth → Stmt.DerivesAll depth (Stmt.tokensAll stmts) stmts
  | [], _, _ => .nil
  | stmt :: stmts, depth, hdepth => by
    simp only [tokensAll, List.length_append] at hdepth
    exact .cons (derives_tokens stmt depth (by omega)) (derivesAll stmts depth (by omega))

end

/-! ## Tokens that have a text -/

namespace Token.Writable

@[simp] theorem int (value : Nat) : (Token.int value).Writable := trivial

@[simp] theorem keyword (word : Keyword) : (Token.keyword word).Writable := trivial

@[simp] theorem symbol (mark : Symbol) : (Token.symbol mark).Writable := trivial

@[simp] theorem operator (op : BinaryOp) : op.token.Writable := by
  cases op <;> trivial

end Token.Writable

/-- All tokens have a text. -/
def AllWritable (tokens : List Token) : Prop :=
  ∀ token ∈ tokens, token.Writable

namespace AllWritable

@[simp] theorem nil : AllWritable [] :=
  List.forall_mem_nil _

@[simp] theorem cons {token : Token} {tokens : List Token} :
    AllWritable (token :: tokens) ↔ token.Writable ∧ AllWritable tokens :=
  List.forall_mem_cons

@[simp] theorem append {tokens more : List Token} :
    AllWritable (tokens ++ more) ↔ AllWritable tokens ∧ AllWritable more :=
  List.forall_mem_append

@[simp] theorem parenthesize {tokens : List Token} :
    AllWritable (parenthesize tokens) ↔ AllWritable tokens := by
  simp [ScriptFacts.parenthesize]

@[simp] theorem operandTokens {expr : Expr} :
    AllWritable expr.operandTokens ↔ AllWritable expr.tokens := by
  rw [Expr.operandTokens_eq]
  split
  · rfl
  · exact parenthesize

@[simp] theorem separate {items : List (List Token)} :
    AllWritable (separate items) ↔ ∀ item ∈ items, AllWritable item := by
  induction items with
  | nil => simp [ScriptFacts.separate]
  | cons item items ih =>
    cases items with
    | nil => simp [ScriptFacts.separate]
    | cons second items => simp [ScriptFacts.separate, ih]

end AllWritable

/-! ## Terms that keep to the signatures -/

/-- A numeral without zeros in front is how its number is written. -/
theorem Leaf.exists_repr {text : String} (h : Leaf.numeral.Admits text) :
    ∃ value : Nat, value.repr = text := by
  obtain ⟨hne, hdigits, hzero⟩ := h
  refine ⟨Nat.ofDigitChars 10 text.toList 0, String.toList_inj.mp ?_⟩
  rw [toList_repr_ofDigitChars hdigits]
  cases htext : text.toList with
  | nil => exact absurd (String.toList_eq_nil_iff.mp htext) hne
  | cons c digits =>
    by_cases hc : c = '0'
    · obtain rfl := hzero (by rw [htext, hc]; rfl)
      rw [← htext]
      decide
    · simp [ScriptFacts.numeral, hc]

theorem Leaf.exists_operator {text : String} (h : Leaf.operator.Admits text) :
    ∃ op : BinaryOp, op.spelling = text := by
  have hmem : text ∈ BinaryOp.all.map BinaryOp.spelling := h
  obtain ⟨op, -, hop⟩ := List.mem_map.mp hmem
  exact ⟨op, hop⟩

/-- What a field of a sort denotes: a text, a tree that can be printed, or several trees. -/
def FieldSort.Denotes : FieldSort → Term → Prop
  | .leaf sort, term => ∃ text, sort.Admits text ∧ sort.term text = term
  | .one .expr, term => ∃ expr : Expr, AllWritable expr.tokens ∧ expr.term = term
  | .one .stmt, term => ∃ stmt : Stmt, AllWritable stmt.tokens ∧ stmt.term = term
  | .many .expr, term => ∃ exprs, (∀ tokens ∈ Expr.tokensAll exprs, AllWritable tokens)
      ∧ .list (Expr.termAll exprs) = term
  | .many .stmt, term => ∃ stmts, AllWritable (Stmt.tokensAll stmts)
      ∧ .list (Stmt.termAll stmts) = term

namespace FieldSort

/-- Several trees that can be printed are a list of them. -/
theorem denotes_list {phrase : Phrase} {items : List Term}
    (h : ∀ item ∈ items, Denotes (.one phrase) item) : Denotes (.many phrase) (.list items) := by
  induction items with
  | nil =>
    cases phrase with
    | expr => exact ⟨[], List.forall_mem_nil _, rfl⟩
    | stmt => exact ⟨[], .nil, rfl⟩
  | cons item items ih =>
    obtain ⟨hitem, hitems⟩ := List.forall_mem_cons.mp h
    cases phrase with
    | expr =>
      obtain ⟨expr, hexpr, rfl⟩ := hitem
      obtain ⟨exprs, hexprs, hterms⟩ := ih hitems
      obtain rfl := Term.list.inj hterms
      exact ⟨expr :: exprs, List.forall_mem_cons.mpr ⟨hexpr, hexprs⟩, rfl⟩
    | stmt =>
      obtain ⟨stmt, hstmt, rfl⟩ := hitem
      obtain ⟨stmts, hstmts, hterms⟩ := ih hitems
      obtain rfl := Term.list.inj hterms
      exact ⟨stmt :: stmts, AllWritable.append.mpr ⟨hstmt, hstmts⟩, rfl⟩

/-- Fields that denote what their kind wants make a node that denotes a tree of its phrase. -/
theorem denotes_node {kind : Kind} {fields : List Term}
    (hfields : List.Forall₂ Denotes kind.signature fields) :
    Denotes (.one kind.phrase) (.node kind fields) := by
  cases kind <;> simp only [Kind.signature] at hfields
  case var =>
    obtain _ | ⟨⟨text, hname, rfl⟩, _ | _⟩ := hfields
    exact ⟨.var text, by simpa [Expr.tokens] using hname.writable, rfl⟩
  case int =>
    obtain _ | ⟨⟨text, hnumeral, rfl⟩, _ | _⟩ := hfields
    obtain ⟨value, rfl⟩ := Leaf.exists_repr hnumeral
    exact ⟨.int value, by simp [Expr.tokens], rfl⟩
  case string =>
    obtain _ | ⟨⟨text, hquote, rfl⟩, _ | _⟩ := hfields
    have hwritable : (Token.string text).Writable := hquote
    exact ⟨.string text, by simp [Expr.tokens, hwritable], rfl⟩
  case array =>
    obtain _ | ⟨⟨elements, helements, rfl⟩, _ | _⟩ := hfields
    exact ⟨.array elements, by simpa [Expr.tokens] using helements, rfl⟩
  case index =>
    obtain _ | ⟨⟨base, hbase, rfl⟩, _ | ⟨⟨position, hposition, rfl⟩, _ | _⟩⟩ := hfields
    exact ⟨.index base position, by simp [Expr.tokens, hbase, hposition], rfl⟩
  case binary =>
    obtain _ | ⟨⟨left, hleft, rfl⟩, _ | ⟨⟨text, hop, rfl⟩,
      _ | ⟨⟨right, hright, rfl⟩, _ | _⟩⟩⟩ := hfields
    obtain ⟨op, rfl⟩ := Leaf.exists_operator hop
    exact ⟨.binary left op right, by simp [Expr.tokens, hleft, hright], rfl⟩
  case unary =>
    obtain _ | ⟨⟨text, hop, rfl⟩, _ | ⟨⟨operand, hoperand, rfl⟩, _ | _⟩⟩ := hfields
    obtain rfl : text = "not" := hop
    exact ⟨.not operand, by simp [Expr.tokens, hoperand], rfl⟩
  case print =>
    obtain _ | ⟨⟨value, hvalue, rfl⟩, _ | _⟩ := hfields
    exact ⟨.print value, by simp [Stmt.tokens, hvalue], rfl⟩
  case assign =>
    obtain _ | ⟨⟨target, htarget, rfl⟩, _ | ⟨⟨value, hvalue, rfl⟩, _ | _⟩⟩ := hfields
    exact ⟨.assign target value, by simp [Stmt.tokens, htarget, hvalue], rfl⟩
  case block =>
    obtain _ | ⟨⟨body, hbody, rfl⟩, _ | _⟩ := hfields
    exact ⟨.block body, by simp [Stmt.tokens, hbody], rfl⟩
  case cond =>
    obtain _ | ⟨⟨condition, hcondition, rfl⟩, _ | ⟨⟨body, hbody, rfl⟩, _ | _⟩⟩ := hfields
    exact ⟨.cond condition body, by simp [Stmt.tokens, hcondition, hbody], rfl⟩
  case loop =>
    obtain _ | ⟨⟨condition, hcondition, rfl⟩, _ | ⟨⟨body, hbody, rfl⟩, _ | _⟩⟩ := hfields
    exact ⟨.loop condition body, by simp [Stmt.tokens, hcondition, hbody], rfl⟩
  case proc =>
    obtain _ | ⟨⟨name, hname, rfl⟩, _ | ⟨⟨parameters, hparameters, rfl⟩,
      _ | ⟨⟨body, hbody, rfl⟩, _ | _⟩⟩⟩ := hfields
    exact ⟨.proc name parameters body,
      by simpa [Stmt.tokens, hname.writable, hbody] using hparameters, rfl⟩
  case call =>
    obtain _ | ⟨⟨name, hname, rfl⟩, _ | ⟨⟨arguments, harguments, rfl⟩, _ | _⟩⟩ := hfields
    exact ⟨.call name arguments, by simpa [Stmt.tokens, hname.writable] using harguments, rfl⟩

end FieldSort

/-- Whatever keeps to the signatures is denoted by something that can be printed. -/
theorem Term.Fits.denotes {sort : FieldSort} {term : Term} (h : term.Fits sort) :
    sort.Denotes term := by
  induction h with
  | leaf htext => exact ⟨_, htext, rfl⟩
  | list _ ih => exact FieldSort.denotes_list ih
  | node hphrase hlength _ ih =>
    obtain rfl := hphrase
    have hfields := List.forall₂_iff_zip.mpr ⟨hlength.symm, fun hmem => ih _ hmem⟩
    exact FieldSort.denotes_node hfields

/-! ## Whole texts -/

namespace Stmt

/-- Every tree that keeps to the signatures is reached: it is the tree of a statement, and whatever
limit the tokens of that statement fit in, its text is read as a program with this tree. -/
theorem ofText_write (term : Term) (hterm : term.Fits (.one .stmt)) :
    ∃ stmt : Stmt, stmt.term = term ∧ ∀ limit, stmt.tokens.length ≤ limit →
      ∃ ast, (ofText limit stmt.write).map toAst = .ok ast ∧ ast.term? = some term := by
  obtain ⟨stmt, hwritable, rfl⟩ := hterm.denotes
  refine ⟨stmt, rfl, fun limit hlimit => ⟨stmt.toAst, ?_, stmt.term?_toAst⟩⟩
  obtain ⟨stream, hstream, htokens⟩ := TokenStream.tokens_of_writeAll hwritable
  have hderives : Derives limit stream.tokens stmt := by
    rw [htokens]
    exact stmt.derives_tokens limit hlimit
  have hread : ofText limit stmt.write = .ok stmt :=
    ofText_eq_ok_iff.mpr ⟨stream, hstream, hderives⟩
  rw [hread]
  rfl

/-- A conjunction after `not` is printed between parentheses; without them, `not` would take the
first conjunct alone. -/
theorem ofText_write_conjunction :
    ∃ (stmt : Stmt) (limit : Nat) (ast : Ast),
      (ofText limit stmt.write).map toAst = .ok ast ∧ ast.term? = some (.node .print
        [.node .unary [.quoted "not", .node .binary
          [.node .var [.quoted "x"], .quoted "and", .node .int [.bare "10"]]]]) := by
  have hname : Leaf.name.Admits "x" :=
    .name (by decide) (List.forall_mem_nil _) fun word => by cases word <;> decide
  have hvar : Term.Fits (.one .expr) (.node .var [.quoted "x"]) :=
    .node rfl rfl (List.forall_mem_singleton.mpr (.leaf hname))
  have hint : Term.Fits (.one .expr) (.node .int [.bare "10"]) :=
    .node rfl rfl (List.forall_mem_singleton.mpr (.leaf (by simp [Leaf.Admits])))
  have hand : Term.Fits (.leaf .operator) (.quoted "and") := .leaf (by simp [Leaf.Admits])
  have hnot : Term.Fits (.leaf .negation) (.quoted "not") := .leaf rfl
  have hbinary : Term.Fits (.one .expr)
      (.node .binary [.node .var [.quoted "x"], .quoted "and", .node .int [.bare "10"]]) :=
    .node rfl rfl (by simpa [Kind.signature] using ⟨hvar, hand, hint⟩)
  have hunary : Term.Fits (.one .expr) (.node .unary [.quoted "not", _]) :=
    .node rfl rfl (by simpa [Kind.signature] using ⟨hnot, hbinary⟩)
  have hprint : Term.Fits (.one .stmt) (.node .print [_]) :=
    .node rfl rfl (List.forall_mem_singleton.mpr hunary)
  obtain ⟨stmt, -, hread⟩ := ofText_write _ hprint
  obtain ⟨ast, hast, hterm⟩ := hread _ (Nat.le_refl _)
  exact ⟨stmt, _, ast, hast, hterm⟩

end Stmt

end ScriptFacts
