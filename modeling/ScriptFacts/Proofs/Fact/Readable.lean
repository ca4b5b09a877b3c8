import ScriptFacts.Proofs.Arena.Unquoted
import ScriptFacts.Proofs.Fact.Determined

/-!
# The text tells the facts

Arguments are written as they are, so a fact can be read back from its line in one way only if no
argument holds the quote that ends it. Then the name of the relation ends at the first mark after
it, the relation tells how many arguments there are, and each of them ends at its second quote, even
if it holds commas, parentheses, the end of a line or a whole line of facts. So the first fact is
told by the text, and so is the text of the facts after it.

* `Fact.eq_of_line`: a fact is told by any text that begins with its line.
* `FactSet.eq_of_render`: a set of facts is told by its text.
* `Ast.quoteFree_facts`: a program without quotes has facts without quotes.
* `FactSet.render_determines`: both, for sets of facts and for scripts; with quotes in the strings,
  scripts with different facts may have one text.
-/
namespace ScriptFacts

/-! ## Facts without quotes -/

/-- No argument has a single quote in it. -/
def Fact.QuoteFree (fact : Fact) : Prop :=
  ∀ arg ∈ fact.args, ScriptFacts.QuoteFree arg

/-- No argument of any fact has a single quote in it. -/
def FactSet.QuoteFree (set : FactSet) : Prop :=
  ∀ fact ∈ set.toList, fact.QuoteFree

instance (fact : Fact) : Decidable fact.QuoteFree :=
  inferInstanceAs (Decidable (∀ arg ∈ fact.args, ScriptFacts.QuoteFree arg))

instance (set : FactSet) : Decidable set.QuoteFree :=
  inferInstanceAs (Decidable (∀ fact ∈ set.toList, fact.QuoteFree))

/-! ## Written facts as lists of characters -/

@[simp] theorem toList_quote (text : String) :
    (quote text).toList = quoteMark :: (text.toList ++ [quoteMark]) := by
  simp [quote, quoteMark]

/-- The name of a relation as it is written. -/
def Relation.written (relation : Relation) : NameStyle → String
  | .quoted => quote relation.name
  | .bare => relation.name

namespace Fact

theorem toList_line (style : NameStyle) (fact : Fact) :
    (fact.line style).toList = (fact.relation.written style).toList
      ++ '(' :: ((renderArgs fact.args).toList ++ [')', '.', '\n']) := by
  cases style <;> simp [line, render, Relation.written]

theorem toList_renderMore_cons (arg : String) (args : List String) :
    (renderMore (arg :: args)).toList
      = ',' :: quoteMark :: (arg.toList ++ quoteMark :: (renderMore args).toList) := by
  simp [renderMore]

theorem toList_renderArgs_cons (arg : String) (args : List String) :
    (renderArgs (arg :: args)).toList
      = quoteMark :: (arg.toList ++ quoteMark :: (renderMore args).toList) := by
  simp [renderArgs]

/-! ## Unique reading -/

/-- A relation is told by any text that begins with its name and goes on with a parenthesis. -/
theorem relation_eq_of_written (style : NameStyle) {relation other : Relation}
    {rest more : List Char}
    (h : (relation.written style).toList ++ '(' :: rest
      = (other.written style).toList ++ '(' :: more) : relation = other ∧ rest = more := by
  have hmarks (relation : Relation) :
      quoteMark ∉ relation.name.toList ∧ '(' ∉ relation.name.toList := by
    cases relation with
    | node kind => exact kind.marks_notMem_name
    | empty | elem => decide
  have hname {relation other : Relation} (h : relation.name.toList = other.name.toList) :
      relation = other := by
    have hsame := congrArg Relation.ofName? (String.toList_inj.mp h)
    rw [Relation.ofName?_name, Relation.ofName?_name] at hsame
    exact Option.some.inj hsame
  cases style with
  | quoted =>
    simp only [Relation.written, toList_quote, List.cons_append, List.append_assoc,
      List.nil_append, List.cons.injEq, true_and] at h
    obtain ⟨hsame, hrest⟩ := eq_of_append_cons h (hmarks relation).1 (hmarks other).1
    exact ⟨hname hsame, (List.cons.inj hrest).2⟩
  | bare =>
    obtain ⟨hsame, hrest⟩ := eq_of_append_cons h (hmarks relation).2 (hmarks other).2
    exact ⟨hname hsame, hrest⟩

/-- As many further arguments as are known to come are told by any text that begins with them. -/
theorem more_eq_of_append {args others : List String} {rest more : List Char}
    (hlength : args.length = others.length) (hargs : ∀ arg ∈ args, ScriptFacts.QuoteFree arg)
    (hothers : ∀ arg ∈ others, ScriptFacts.QuoteFree arg)
    (h : (renderMore args).toList ++ rest = (renderMore others).toList ++ more) :
    args = others ∧ rest = more := by
  induction args generalizing others with
  | nil =>
    obtain rfl := List.length_eq_zero_iff.mp hlength.symm
    exact ⟨rfl, h⟩
  | cons arg args ih =>
    obtain ⟨other, others, rfl⟩ := List.exists_cons_of_length_eq_add_one hlength.symm
    obtain ⟨harg, hargs⟩ := List.forall_mem_cons.mp hargs
    obtain ⟨hother, hothers⟩ := List.forall_mem_cons.mp hothers
    simp only [toList_renderMore_cons, List.cons_append, List.append_assoc, List.cons.injEq,
      true_and] at h
    obtain ⟨hsame, hafter⟩ := eq_of_append_cons h harg hother
    obtain ⟨rfl, rfl⟩ := ih (Nat.succ.inj hlength) hargs hothers hafter
    rw [String.toList_inj.mp hsame]
    exact ⟨rfl, rfl⟩

/-- The same for all arguments, the first of which has no comma before it. -/
theorem args_eq_of_append {args others : List String} {rest more : List Char}
    (hlength : args.length = others.length) (hargs : ∀ arg ∈ args, ScriptFacts.QuoteFree arg)
    (hothers : ∀ arg ∈ others, ScriptFacts.QuoteFree arg)
    (h : (renderArgs args).toList ++ rest = (renderArgs others).toList ++ more) :
    args = others ∧ rest = more := by
  cases args with
  | nil =>
    obtain rfl := List.length_eq_zero_iff.mp hlength.symm
    exact ⟨rfl, h⟩
  | cons arg args =>
    obtain ⟨other, others, rfl⟩ := List.exists_cons_of_length_eq_add_one hlength.symm
    apply more_eq_of_append hlength hargs hothers
    rw [toList_renderMore_cons, toList_renderMore_cons, ← toList_renderArgs_cons,
      ← toList_renderArgs_cons, List.cons_append, List.cons_append, h]

/-- A fact is told by any text that begins with its line. -/
theorem eq_of_line (style : NameStyle) {fact other : Fact} {rest more : List Char}
    (hfact : fact.QuoteFree) (hother : other.QuoteFree)
    (h : (fact.line style).toList ++ rest = (other.line style).toList ++ more) :
    fact = other ∧ rest = more := by
  obtain ⟨relation, args, hlength⟩ := fact
  obtain ⟨relation', args', hlength'⟩ := other
  simp only [toList_line, List.append_assoc, List.cons_append, List.nil_append] at h
  obtain ⟨rfl, hargs⟩ := relation_eq_of_written style h
  obtain ⟨rfl, hend⟩ := args_eq_of_append (hlength.trans hlength'.symm) hfact hother hargs
  exact ⟨rfl, by simpa using hend⟩

end Fact

namespace FactSet

theorem toList_render (style : NameStyle) (set : FactSet) :
    (set.render style).toList = set.toList.flatMap fun fact => (fact.line style).toList := by
  have hfold (facts : List Fact) (text : String) :
      (facts.foldl (fun text fact => text ++ fact.line style) text).toList
        = text.toList ++ facts.flatMap fun fact => (fact.line style).toList := by
    induction facts generalizing text with
    | nil => simp
    | cons fact facts ih => simp [ih]
  rw [render, ← Array.foldl_toList, hfold]
  rfl

theorem eq_of_lines (style : NameStyle) {facts others : List Fact}
    (hfacts : ∀ fact ∈ facts, fact.QuoteFree) (hothers : ∀ fact ∈ others, fact.QuoteFree)
    (h : (facts.flatMap fun fact => (fact.line style).toList)
      = others.flatMap fun fact => (fact.line style).toList) : facts = others := by
  have hne (fact : Fact) : (fact.line style).toList ≠ [] := by simp [Fact.toList_line]
  induction facts generalizing others with
  | nil =>
    cases others with
    | nil => rfl
    | cons other others => simp [hne] at h
  | cons fact facts ih =>
    cases others with
    | nil => simp [hne] at h
    | cons other others =>
      obtain ⟨hfact, hbelow⟩ := List.forall_mem_cons.mp hfacts
      obtain ⟨hother, hbelow'⟩ := List.forall_mem_cons.mp hothers
      rw [List.flatMap_cons, List.flatMap_cons] at h
      obtain ⟨rfl, hmore⟩ := Fact.eq_of_line style hfact hother h
      rw [ih hbelow hbelow' hmore]

/-- Sets of facts without quotes are equal if their texts are. -/
theorem eq_of_render (style : NameStyle) {set other : FactSet} (hset : set.QuoteFree)
    (hother : other.QuoteFree) (h : set.render style = other.render style) : set = other := by
  have hlines := congrArg String.toList h
  rw [toList_render, toList_render] at hlines
  have hlist := eq_of_lines style hset hother hlines
  obtain ⟨facts⟩ := set
  obtain ⟨others⟩ := other
  exact congrArg FactSet.mk (Array.toList_inj.mp hlist)

end FactSet

/-! ## The facts of a program -/

theorem QuoteFree.of_digits {text : String} (h : ∀ c ∈ text.toList, c.isDigit = true) :
    QuoteFree text := fun hmem => absurd (h quoteMark hmem) (by decide)

/-- An identifier has digits only. -/
theorem Legend.Names.quoteFree {legend : Legend} {id : String} {entity : Entity}
    (h : legend.Names id entity) : QuoteFree id := by
  obtain ⟨index, -, rfl⟩ := h
  apply QuoteFree.of_digits
  rw [Nat.toList_repr]
  exact fun c hc => Nat.isDigit_of_mem_toDigits (by decide) (by decide) hc

/-- A fact that holds has identifiers and texts of the arena for arguments. -/
theorem Legend.Holds.quoteFree {legend : Legend} {arena : Arena} {fact : Fact}
    (h : legend.Holds arena fact) (hlegible : arena.Legible) : fact.QuoteFree := by
  obtain ⟨args, entity, hargs, hsubject, htells⟩ := h
  unfold Fact.QuoteFree
  rw [hargs]
  refine List.forall_mem_cons.mpr ⟨hsubject.quoteFree, ?_⟩
  generalize fact.relation = relation at htells
  cases htells with
  | @node handle node args hnode hfields =>
    intro arg harg
    obtain ⟨field, hfield, hfor⟩ := exists_of_forall₂ hfields.flip harg
    have hfieldLegible := hlegible handle node hnode field hfield
    cases field with
    | digits written =>
      obtain rfl : arg = written := hfor
      exact .of_digits hfieldLegible.2
    | text written =>
      obtain rfl : arg = written := hfor
      exact hfieldLegible
    | child child | children items =>
      have hnames : legend.Names arg _ := hfor
      exact hnames.quoteFree
  | empty => simp
  | elem hfirst hnext => simp [hfirst.quoteFree, hnext.quoteFree]

/-- A program without quotes has facts without quotes. -/
theorem Ast.quoteFree_facts {ast : Ast} {set : FactSet} (h : ast.facts? = some set)
    (hlegible : ast.arena.Legible) : set.QuoteFree := by
  obtain ⟨final, hexport, rfl⟩ := Option.map_eq_some_iff.mp h
  obtain ⟨legend, -, -, hholds, -⟩ := Ast.exists_legend hexport
  exact fun fact hmem => (hholds fact hmem).quoteFree hlegible

/-! ## Two strings in a sum -/

/-- The statement that prints the sum of two strings. -/
def Stmt.sum (first second : String) : Stmt :=
  .print (.binary (.string first) .add (.string second))

/-- The facts of such a statement. -/
def FactSet.sum (first second : String) : FactSet where
  facts := #[⟨.node .print, ["1", "2"], rfl⟩, ⟨.node .binary, ["2", "3", "+", "4"], rfl⟩,
    ⟨.node .string, ["3", first], rfl⟩, ⟨.node .string, ["4", second], rfl⟩]

theorem Stmt.ofText_sum {first second : String} (hfirst : '"' ∉ first.toList)
    (hsecond : '"' ∉ second.toList) :
    ∃ stream, TokenStream.ofText (sum first second).write = .ok stream
      ∧ stream.tokens = (sum first second).tokens
      ∧ Ast.ofText defaultLimit (sum first second).write = .ok (sum first second).toAst := by
  have hwritable : AllWritable (sum first second).tokens := by
    have hfirst' : (Token.string first).Writable := hfirst
    have hsecond' : (Token.string second).Writable := hsecond
    simp [sum, Stmt.tokens, Expr.tokens, Expr.operandTokens, hfirst', hsecond']
  obtain ⟨stream, hstream, htokens⟩ := TokenStream.tokens_of_writeAll hwritable
  have hderives : Derives defaultLimit stream.tokens (sum first second) := by
    rw [htokens]
    exact Stmt.derives_tokens _ defaultLimit (by simp [sum, Stmt.tokens, Expr.tokens,
      Expr.operandTokens, defaultLimit])
  refine ⟨stream, hstream, htokens, ?_⟩
  have hread : ofText defaultLimit (sum first second).write = .ok (sum first second) :=
    ofText_eq_ok_iff.mpr ⟨stream, hstream, hderives⟩
  rw [Ast.ofText_eq, hread]
  rfl

/-- The end of one string fact and the beginning of the next, up to its text. -/
def NameStyle.seam : NameStyle → String
  | .quoted => "').\n'String'('4','"
  | .bare => "').\nString('4','"

theorem Stmt.facts?_sum_seam (style : NameStyle) :
    (sum "" style.seam).toAst.facts? = some (.sum "" style.seam)
      ∧ (sum style.seam "").toAst.facts? = some (.sum style.seam "") := by
  unfold Ast.facts? Ast.export?
  rw [Progress.run_node, Progress.run_node]
  cases style <;> decide +kernel

/-- It cannot be told whether such a text is that of the first string or of the second. -/
theorem FactSet.exists_ne_of_render_eq (style : NameStyle) :
    ∃ (text text' : List Char) (ast ast' : Ast) (set set' : FactSet),
      Ast.ofText defaultLimit text = .ok ast ∧ Ast.ofText defaultLimit text' = .ok ast'
        ∧ ast.facts? = some set ∧ ast'.facts? = some set' ∧ set ≠ set'
        ∧ set.render style = set'.render style := by
  have hseam : '"' ∉ style.seam.toList := by cases style <;> decide
  have hempty : '"' ∉ "".toList := by decide
  obtain ⟨-, -, -, hread⟩ := Stmt.ofText_sum hempty hseam
  obtain ⟨-, -, -, hread'⟩ := Stmt.ofText_sum hseam hempty
  obtain ⟨hfacts, hfacts'⟩ := Stmt.facts?_sum_seam style
  refine ⟨_, _, _, _, _, _, hread, hread', hfacts, hfacts', ?_, ?_⟩
  · cases style <;> decide
  · cases style <;> decide +kernel

/-! ## Texts and facts -/

/-- Facts without quotes are told by their text, in either style, and so are the facts of scripts
without quotes in their strings. The quotes matter: in either style there are two scripts that have
different facts with one text. -/
theorem FactSet.render_determines :
    (∀ (style : NameStyle) (set other : FactSet), set.QuoteFree → other.QuoteFree →
        set.render style = other.render style → set = other)
      ∧ (∀ (limit limit' : Nat) (text text' : List Char) (stream stream' : TokenStream)
          (ast ast' : Ast), Ast.ofText limit text = .ok ast → Ast.ofText limit' text' = .ok ast' →
          TokenStream.ofText text = .ok stream → TokenStream.ofText text' = .ok stream' →
          stream.QuoteFree → stream'.QuoteFree →
          ∃ set set', ast.facts? = some set ∧ ast'.facts? = some set'
            ∧ ∀ style, set.render style = set'.render style → set = set')
      ∧ ∀ style : NameStyle, ∃ (text text' : List Char) (ast ast' : Ast) (set set' : FactSet),
        Ast.ofText defaultLimit text = .ok ast ∧ Ast.ofText defaultLimit text' = .ok ast'
          ∧ ast.facts? = some set ∧ ast'.facts? = some set' ∧ set ≠ set'
          ∧ set.render style = set'.render style := by
  refine ⟨fun style _ _ hset hother h => eq_of_render style hset hother h, ?_,
    exists_ne_of_render_eq⟩
  intro limit limit' text text' stream stream' ast ast' hast hast' hstream hstream' hfree hfree'
  obtain ⟨stmt, rfl, hlegible⟩ := Ast.exists_legible hast hstream hfree
  obtain ⟨stmt', rfl, hlegible'⟩ := Ast.exists_legible hast' hstream' hfree'
  obtain ⟨set, -, hset, -⟩ := stmt.exists_readBack
  obtain ⟨set', -, hset', -⟩ := stmt'.exists_readBack
  exact ⟨set, set', hset, hset', fun style h => eq_of_render style
    (Ast.quoteFree_facts hset hlegible) (Ast.quoteFree_facts hset' hlegible') h⟩

/-- The end of a line and the end of a fact do no harm in a string: it is told which of two strings
each of them is. -/
theorem FactSet.render_determines_line_end :
    (∀ style, (FactSet.sum "\n" ").").render style ≠ (FactSet.sum ")." "\n").render style)
      ∧ ∃ set set', (Stmt.sum "\n" ").").toAst.facts? = some set
        ∧ (Stmt.sum ")." "\n").toAst.facts? = some set'
        ∧ ∀ style, set.render style ≠ set'.render style := by
  obtain ⟨hsets, hscripts, -⟩ := render_determines
  constructor
  · intro style h
    exact absurd (hsets style _ _ (by decide) (by decide) h) (by decide)
  · obtain ⟨stream, hstream, htokens, hread⟩ :=
      Stmt.ofText_sum (show '"' ∉ "\n".toList by decide) (show '"' ∉ ").".toList by decide)
    obtain ⟨stream', hstream', htokens', hread'⟩ :=
      Stmt.ofText_sum (show '"' ∉ ").".toList by decide) (show '"' ∉ "\n".toList by decide)
    have hfree : stream.QuoteFree := by
      rw [TokenStream.quoteFree_iff, htokens]
      decide
    have hfree' : stream'.QuoteFree := by
      rw [TokenStream.quoteFree_iff, htokens']
      decide
    have hdiffer : (Stmt.sum "\n" ").").toAst.facts? ≠ (Stmt.sum ")." "\n").toAst.facts? := by
      unfold Ast.facts? Ast.export?
      rw [Progress.run_node, Progress.run_node]
      decide +kernel
    obtain ⟨set, set', hset, hset', htold⟩ :=
      hscripts _ _ _ _ _ _ _ _ hread hread' hstream hstream' hfree hfree'
    refine ⟨set, set', hset, hset', fun style h => hdiffer ?_⟩
    rw [hset, hset', htold style h]

end ScriptFacts
