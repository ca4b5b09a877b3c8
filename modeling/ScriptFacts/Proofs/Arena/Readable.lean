import ScriptFacts.Proofs.Arena.Unquoted
import ScriptFacts.Proofs.Fact.Determined

/-!
# The written form tells the tree

A term is written without escapes, so its written form can be read in one way only if no text in it
holds the quote that ends it, and no numeral is empty. Brackets, commas and parentheses inside of a
text do no harm. Such a term is `Legible`. Its first character tells of what form it is, a text ends
at the next quote, a numeral at the first character that is no digit, and a sequence goes on exactly
if a comma follows; so whatever comes after a term, the term and what comes after it are told by the
text of both.

* `Term.Legible.unique`: a legible term is told by any text that begins with its written form.
* `Arena.Legible.term`: what is unfolded from an arena with legible texts is legible.
* `Ast.eq_iff_render_eq`: scripts without quotes in their strings are written alike exactly if their
  programs are equal; with quotes, different programs may be written alike.
-/
namespace ScriptFacts

namespace Term

/-! ## Written forms as lists of characters -/

@[simp] theorem toList_render_bare (text : String) : (bare text).render.toList = text.toList := by
  rw [render]

@[simp] theorem toList_render_quoted (text : String) :
    (quoted text).render.toList = quoteMark :: (text.toList ++ [quoteMark]) := by
  simp [render, quoteMark]

@[simp] theorem toList_render_list (items : List Term) :
    (list items).render.toList = '[' :: ((renderAll items).toList ++ [']']) := by
  simp [render]

@[simp] theorem toList_render_node (kind : Kind) (fields : List Term) :
    (node kind fields).render.toList
      = kind.name.toList ++ '(' :: ((renderAll fields).toList ++ [')']) := by
  simp [render]

@[simp] theorem toList_renderMore_cons (term : Term) (terms : List Term) :
    (renderMore (term :: terms)).toList
      = ',' :: (term.render.toList ++ (renderMore terms).toList) := by
  simp [renderMore]

/-! ## Legible terms -/

/-- All texts in a term are without quotes, and its numerals are made of digits. -/
inductive Legible : Term → Prop
  | bare {text : String} (hne : text ≠ "") (hdigits : ∀ c ∈ text.toList, c.isDigit = true) :
    Legible (bare text)
  | quoted {text : String} (hfree : QuoteFree text) : Legible (quoted text)
  | list {items : List Term} (hitems : ∀ item ∈ items, Legible item) : Legible (list items)
  | node {kind : Kind} {fields : List Term} (hfields : ∀ field ∈ fields, Legible field) :
    Legible (node kind fields)

/-- With what the written form of a term may begin. -/
inductive Opens : Term → Char → Prop
  | bare {text : String} {c : Char} (hc : c.isDigit = true) : Opens (bare text) c
  | quoted {text : String} : Opens (quoted text) quoteMark
  | list {items : List Term} : Opens (list items) '['
  | node {kind : Kind} {fields : List Term} {c : Char} (hc : c.isUpper = true) :
    Opens (node kind fields) c

theorem Legible.exists_opens {term : Term} (h : term.Legible) :
    ∃ c more, term.render.toList = c :: more ∧ term.Opens c := by
  cases h with
  | @bare text hne hdigits =>
    have hne' : text.toList ≠ [] := fun hnil => hne (String.toList_eq_nil_iff.mp hnil)
    obtain ⟨c, more, htext⟩ := List.exists_cons_of_ne_nil hne'
    refine ⟨c, more, by rw [toList_render_bare, htext], .bare (hdigits c ?_)⟩
    rw [htext]
    exact List.mem_cons_self
  | quoted _ => exact ⟨_, _, toList_render_quoted _, .quoted⟩
  | list _ => exact ⟨_, _, toList_render_list _, .list⟩
  | @node kind fields _ =>
    have hname : ∃ c more, kind.name.toList = c :: more ∧ c.isUpper = true := by
      cases kind <;> exact ⟨_, _, rfl, by decide⟩
    obtain ⟨c, more, hname, hc⟩ := hname
    exact ⟨c, _, by rw [toList_render_node, hname]; rfl, .node hc⟩

/-- A character with which terms of two forms begin does not exist. -/
theorem Opens.ctorIdx_eq {term other : Term} {c : Char} (h : term.Opens c)
    (hother : other.Opens c) : term.ctorIdx = other.ctorIdx := by
  have hdigit : c.isDigit = true → c.isUpper = false := by
    intro hdigit
    have hrange : 48 ≤ c.toNat ∧ c.toNat ≤ 57 := Char.isDigit_iff_toNat.mp hdigit
    apply Bool.eq_false_of_not_eq_true
    intro hupper
    have hrange' := toNat_of_isUpper hupper
    omega
  cases h <;> cases hother <;> first | rfl | simp_all [quoteMark]

/-- Texts that begin with terms of different forms differ. -/
theorem Legible.ctorIdx_eq {term other : Term} (h : term.Legible) (hother : other.Legible)
    {rest more : List Char} (heq : term.render.toList ++ rest = other.render.toList ++ more) :
    term.ctorIdx = other.ctorIdx := by
  obtain ⟨c, _, hterm, hopens⟩ := h.exists_opens
  obtain ⟨d, _, hother, hopens'⟩ := hother.exists_opens
  rw [hterm, hother] at heq
  obtain rfl : c = d := (List.cons.inj heq).1
  exact hopens.ctorIdx_eq hopens'

/-! ## What comes after a term -/

/-- A numeral ends before the text. -/
def EndsNumeral (rest : List Char) : Prop :=
  ∀ c ∈ rest.head?, c.isDigit = false

/-- A sequence ends before the text, at a closing mark. -/
def EndsSequence (rest : List Char) : Prop :=
  ∃ c more, rest = c :: more ∧ (c = ')' ∨ c = ']')

theorem EndsNumeral.eq_of_append {first second : String} {rest more : List Char}
    (hrest : EndsNumeral rest) (hmore : EndsNumeral more)
    (hfirst : ∀ c ∈ first.toList, c.isDigit = true)
    (hsecond : ∀ c ∈ second.toList, c.isDigit = true)
    (heq : first.toList ++ rest = second.toList ++ more) : first = second ∧ rest = more := by
  have htake := congrArg (List.takeWhile Char.isDigit) heq
  rw [takeWhile_append_of_head? hfirst hrest, takeWhile_append_of_head? hsecond hmore] at htake
  rw [htake] at heq
  exact ⟨String.toList_inj.mp htake, List.append_cancel_left heq⟩

/-- What comes after the first item of a sequence is no digit. -/
theorem EndsSequence.endsNumeral {terms : List Term} {rest : List Char}
    (hrest : EndsSequence rest) : EndsNumeral ((renderMore terms).toList ++ rest) := by
  cases terms with
  | nil =>
    obtain ⟨c, more, rfl, hc⟩ := hrest
    intro d hd
    obtain rfl : c = d := Option.some.inj hd
    rcases hc with rfl | rfl <;> decide
  | cons term terms =>
    intro d hd
    rw [toList_renderMore_cons] at hd
    obtain rfl : ',' = d := Option.some.inj hd
    decide

/-- No term begins where a sequence ends. -/
theorem EndsSequence.ne_render {term : Term} {rest more : List Char} (hrest : EndsSequence rest)
    (h : term.Legible) : rest ≠ term.render.toList ++ more := by
  obtain ⟨c, _, rfl, hc⟩ := hrest
  obtain ⟨d, _, hterm, hopens⟩ := h.exists_opens
  intro heq
  rw [hterm] at heq
  obtain rfl : c = d := (List.cons.inj heq).1
  rcases hc with rfl | rfl <;> cases hopens <;> contradiction

/-! ## Unique reading -/

mutual

/-- A legible term is told by any text that begins with its written form, as long as no digit comes
after it. -/
theorem Legible.unique : (term other : Term) → term.Legible → other.Legible →
    (rest more : List Char) → EndsNumeral rest → EndsNumeral more →
    term.render.toList ++ rest = other.render.toList ++ more → term = other ∧ rest = more
  | .bare text, other, h, hother, rest, more, hrest, hmore, heq => by
    have hform := h.ctorIdx_eq hother heq
    cases hother with
    | bare hne' hdigits' =>
      cases h with
      | bare hne hdigits =>
        rw [toList_render_bare, toList_render_bare] at heq
        obtain ⟨rfl, rfl⟩ := hrest.eq_of_append hmore hdigits hdigits' heq
        exact ⟨rfl, rfl⟩
    | _ => cases hform
  | .quoted text, other, h, hother, rest, more, _, _, heq => by
    have hform := h.ctorIdx_eq hother heq
    cases hother with
    | quoted hfree' =>
      cases h with
      | quoted hfree =>
        simp only [toList_render_quoted, List.cons_append, List.append_assoc, List.cons.injEq,
          true_and, List.nil_append] at heq
        obtain ⟨htext, rfl⟩ := eq_of_append_cons heq hfree hfree'
        rw [String.toList_inj.mp htext]
        exact ⟨rfl, rfl⟩
    | _ => cases hform
  | .list items, other, h, hother, rest, more, _, _, heq => by
    have hform := h.ctorIdx_eq hother heq
    cases hother with
    | @list items' hitems' =>
      cases h with
      | list hitems =>
        simp only [toList_render_list, List.cons_append, List.append_assoc, List.cons.injEq,
          true_and, List.nil_append] at heq
        have hclose (rest : List Char) : EndsSequence (']' :: rest) := ⟨_, _, rfl, .inr rfl⟩
        obtain ⟨rfl, hafter⟩ :=
          uniqueAll items items' hitems hitems' _ _ (hclose rest) (hclose more) heq
        exact ⟨rfl, (List.cons.inj hafter).2⟩
    | _ => cases hform
  | .node kind fields, other, h, hother, rest, more, _, _, heq => by
    have hform := h.ctorIdx_eq hother heq
    cases hother with
    | @node kind' fields' hfields' =>
      cases h with
      | node hfields =>
        simp only [toList_render_node, List.cons_append, List.append_assoc,
          List.nil_append] at heq
        obtain ⟨hname, hbelow⟩ :=
          eq_of_append_cons heq kind.marks_notMem_name.2 kind'.marks_notMem_name.2
        obtain rfl := Kind.name_injective (String.toList_inj.mp hname)
        have hclose (rest : List Char) : EndsSequence (')' :: rest) := ⟨_, _, rfl, .inl rfl⟩
        obtain ⟨rfl, hafter⟩ :=
          uniqueAll fields fields' hfields hfields' _ _ (hclose rest) (hclose more) hbelow
        exact ⟨rfl, (List.cons.inj hafter).2⟩
    | _ => cases hform

/-- A sequence is told up to its closing mark. -/
theorem Legible.uniqueAll : (terms others : List Term) → (∀ term ∈ terms, term.Legible) →
    (∀ other ∈ others, other.Legible) → (rest more : List Char) → EndsSequence rest →
    EndsSequence more → (renderAll terms).toList ++ rest = (renderAll others).toList ++ more →
    terms = others ∧ rest = more
  | [], others, _, hothers, rest, more, hrest, _, heq => by
    cases others with
    | nil => exact ⟨rfl, heq⟩
    | cons other others =>
      rw [renderAll, renderAll, String.toList_append, List.append_assoc] at heq
      exact absurd heq (hrest.ne_render (hothers other List.mem_cons_self))
  | term :: terms, others, hterms, hothers, rest, more, hrest, hmore, heq => by
    obtain ⟨hterm, hterms⟩ := List.forall_mem_cons.mp hterms
    rw [renderAll, String.toList_append, List.append_assoc] at heq
    cases others with
    | nil => exact absurd heq.symm (hmore.ne_render hterm)
    | cons other others =>
      obtain ⟨hother, hafter⟩ := List.forall_mem_cons.mp hothers
      rw [renderAll, String.toList_append, List.append_assoc] at heq
      obtain ⟨rfl, hitems⟩ := Legible.unique term other hterm hother _ _ hrest.endsNumeral
        hmore.endsNumeral heq
      obtain ⟨rfl, rfl⟩ := uniqueMore terms others hterms hafter rest more hrest hmore hitems
      exact ⟨rfl, rfl⟩

/-- So are its further items, each after a comma. -/
theorem Legible.uniqueMore : (terms others : List Term) → (∀ term ∈ terms, term.Legible) →
    (∀ other ∈ others, other.Legible) → (rest more : List Char) → EndsSequence rest →
    EndsSequence more → (renderMore terms).toList ++ rest = (renderMore others).toList ++ more →
    terms = others ∧ rest = more
  | [], others, _, _, rest, more, hrest, _, heq => by
    cases others with
    | nil => exact ⟨rfl, heq⟩
    | cons other others =>
      obtain ⟨c, _, rfl, hc⟩ := hrest
      rw [toList_renderMore_cons] at heq
      obtain rfl : c = ',' := (List.cons.inj heq).1
      simp at hc
  | term :: terms, others, hterms, hothers, rest, more, hrest, hmore, heq => by
    obtain ⟨hterm, hterms⟩ := List.forall_mem_cons.mp hterms
    rw [toList_renderMore_cons] at heq
    cases others with
    | nil =>
      obtain ⟨c, _, rfl, hc⟩ := hmore
      obtain rfl : ',' = c := (List.cons.inj heq).1
      simp at hc
    | cons other others =>
      obtain ⟨hother, hafter⟩ := List.forall_mem_cons.mp hothers
      rw [toList_renderMore_cons, List.cons_append, List.cons_append, List.append_assoc,
        List.append_assoc] at heq
      obtain ⟨rfl, hitems⟩ := Legible.unique term other hterm hother _ _ hrest.endsNumeral
        hmore.endsNumeral (List.cons.inj heq).2
      obtain ⟨rfl, rfl⟩ := uniqueMore terms others hterms hafter rest more hrest hmore hitems
      exact ⟨rfl, rfl⟩

end

/-- Legible terms that are written alike are equal. -/
theorem Legible.eq_of_render {term other : Term} (h : term.Legible) (hother : other.Legible)
    (heq : term.render = other.render) : term = other := by
  have hnil : EndsNumeral [] := by simp [EndsNumeral]
  have heq' : term.render.toList ++ [] = other.render.toList ++ [] := by rw [heq]
  exact (Legible.unique term other h hother [] [] hnil hnil heq').1

end Term

/-! ## Legible arenas -/

/-- The term of a legible field is legible, if those of its children are. -/
theorem Field.Legible.term {child? : Nat → Option Term} {field : Field Nat} {term : Term}
    (h : field.Legible) (hchild : ∀ handle term, child? handle = some term → term.Legible)
    (hterm : Term.ofField? child? field = some term) : term.Legible := by
  cases field with
  | digits written =>
    obtain rfl := Option.some.inj hterm
    exact .bare h.1 h.2
  | text written =>
    obtain rfl := Option.some.inj hterm
    exact .quoted h
  | child handle => exact hchild handle term hterm
  | children handles =>
    obtain ⟨terms, hterms, rfl⟩ := Option.map_eq_some_iff.mp hterm
    refine .list fun item hitem => ?_
    obtain ⟨handle, -, hhandle⟩ := exists_of_forall₂ (forall₂_of_mapM hterms).flip hitem
    exact hchild handle item hhandle

/-- What is unfolded from an arena with legible texts is legible. -/
theorem Arena.Legible.term {arena : Arena} (h : arena.Legible) {levels handle : Nat} {term : Term}
    (hterm : arena.termWithin? levels handle = some term) : term.Legible := by
  induction levels generalizing handle term with
  | zero => simp [termWithin?] at hterm
  | succ levels ih =>
    obtain ⟨node, hnode, hterm⟩ := Option.bind_eq_some_iff.mp hterm
    obtain ⟨fields, hfields, hterm⟩ := Option.bind_eq_some_iff.mp hterm
    obtain rfl := Option.some.inj hterm
    refine .node fun field hfield => ?_
    obtain ⟨source, hsource, hfield⟩ := exists_of_forall₂ (forall₂_of_mapM hfields).flip hfield
    exact (h handle node hnode source hsource).term (fun _ _ => ih) hfield

/-! ## Whole programs -/

namespace Ast

/-- With quotes in its string, an array of one item is written as one of two. -/
theorem exists_ne_of_render_eq :
    ∃ (text text' : List Char) (ast ast' : Ast) (shown : String),
      Ast.ofText defaultLimit text = .ok ast ∧ Ast.ofText defaultLimit text' = .ok ast'
        ∧ ast.arena ≠ ast'.arena ∧ ast.render? ast.root = some shown
        ∧ ast'.render? ast'.root = some shown := by
  have hone : TokenStream.ofText "print [\"a'),String('b\"];".toList = .ok
      ⟨[⟨.keyword .print, ⟨1, 1⟩⟩, ⟨.symbol .openBracket, ⟨1, 7⟩⟩,
        ⟨.string "a'),String('b", ⟨1, 8⟩⟩, ⟨.symbol .closeBracket, ⟨1, 23⟩⟩,
        ⟨.symbol .semicolon, ⟨1, 24⟩⟩], ⟨1, 25⟩⟩ :=
    TokenStream.ofText_of_toOption (by decide +kernel)
  have htwo : TokenStream.ofText "print [\"a\",\"b\"];".toList = .ok
      ⟨[⟨.keyword .print, ⟨1, 1⟩⟩, ⟨.symbol .openBracket, ⟨1, 7⟩⟩, ⟨.string "a", ⟨1, 8⟩⟩,
        ⟨.symbol .comma, ⟨1, 11⟩⟩, ⟨.string "b", ⟨1, 12⟩⟩, ⟨.symbol .closeBracket, ⟨1, 15⟩⟩,
        ⟨.symbol .semicolon, ⟨1, 16⟩⟩], ⟨1, 17⟩⟩ :=
    TokenStream.ofText_of_toOption (by decide +kernel)
  let one : Stmt := .print (.array [.string "a'),String('b"])
  let two : Stmt := .print (.array [.string "a", .string "b"])
  have hread : ofText defaultLimit "print [\"a'),String('b\"];".toList = .ok one.toAst := by
    rw [ofText_of_stream hone]
    rfl
  have hread' : ofText defaultLimit "print [\"a\",\"b\"];".toList = .ok two.toAst := by
    rw [ofText_of_stream htwo]
    rfl
  exact ⟨_, _, one.toAst, two.toAst, "Print(Array([String('a'),String('b')]))", hread, hread',
    by decide, by decide +kernel, by decide +kernel⟩

/-- The programs of scripts without quotes in their strings are written, and they are written alike
exactly if they are equal. The quotes matter: there are two scripts with different programs that are
written alike. -/
theorem eq_iff_render_eq :
    (∀ (limit limit' : Nat) (text text' : List Char) (stream stream' : TokenStream)
        (ast ast' : Ast), Ast.ofText limit text = .ok ast → Ast.ofText limit' text' = .ok ast' →
        TokenStream.ofText text = .ok stream → TokenStream.ofText text' = .ok stream' →
        stream.QuoteFree → stream'.QuoteFree →
        ∃ shown shown', ast.render? ast.root = some shown ∧ ast'.render? ast'.root = some shown'
          ∧ ((ast.arena = ast'.arena ∧ ast.root = ast'.root) ↔ shown = shown'))
      ∧ ∃ (text text' : List Char) (ast ast' : Ast) (shown : String),
        Ast.ofText defaultLimit text = .ok ast ∧ Ast.ofText defaultLimit text' = .ok ast'
          ∧ ast.arena ≠ ast'.arena ∧ ast.render? ast.root = some shown
          ∧ ast'.render? ast'.root = some shown := by
  refine ⟨?_, exists_ne_of_render_eq⟩
  intro limit limit' text text' stream stream' ast ast' hast hast' hstream hstream' hfree hfree'
  obtain ⟨stmt, rfl, hlegible⟩ := Ast.exists_legible hast hstream hfree
  obtain ⟨stmt', rfl, hlegible'⟩ := Ast.exists_legible hast' hstream' hfree'
  have hterm : stmt.toAst.arena.term? stmt.toAst.root = some stmt.term := stmt.term?_toAst
  have hterm' : stmt'.toAst.arena.term? stmt'.toAst.root = some stmt'.term := stmt'.term?_toAst
  refine ⟨stmt.term.render, stmt'.term.render, ?_, ?_, ?_, ?_⟩
  · rw [render?, hterm, Option.map_some]
  · rw [render?, hterm', Option.map_some]
  · rintro ⟨harena, hroot⟩
    rw [harena, hroot, hterm'] at hterm
    rw [Option.some.inj hterm]
  · intro heq
    have hsame := (hlegible.term hterm).eq_of_render (hlegible'.term hterm') heq
    obtain rfl := stmt.term_injective stmt' hsame
    exact ⟨rfl, rfl⟩

/-- A bracket and a comma in a string do no harm: the next item is told to be one number or two. -/
theorem eq_iff_render_eq_brackets :
    ∃ (ast ast' : Ast) (shown shown' : String),
      Ast.ofText 4 "print [\"],[\",12];".toList = .ok ast
        ∧ Ast.ofText 4 "print [\"],[\",1,2];".toList = .ok ast'
        ∧ ast.render? ast.root = some shown ∧ ast'.render? ast'.root = some shown'
        ∧ shown ≠ shown' := by
  let one : Stmt := .print (.array [.string "],[", .int 12])
  let two : Stmt := .print (.array [.string "],[", .int 1, .int 2])
  have hstream : TokenStream.ofText "print [\"],[\",12];".toList = .ok
      ⟨[⟨.keyword .print, ⟨1, 1⟩⟩, ⟨.symbol .openBracket, ⟨1, 7⟩⟩, ⟨.string "],[", ⟨1, 8⟩⟩,
        ⟨.symbol .comma, ⟨1, 13⟩⟩, ⟨.int 12, ⟨1, 14⟩⟩, ⟨.symbol .closeBracket, ⟨1, 16⟩⟩,
        ⟨.symbol .semicolon, ⟨1, 17⟩⟩], ⟨1, 18⟩⟩ :=
    TokenStream.ofText_of_toOption (by decide +kernel)
  have hstream' : TokenStream.ofText "print [\"],[\",1,2];".toList = .ok
      ⟨[⟨.keyword .print, ⟨1, 1⟩⟩, ⟨.symbol .openBracket, ⟨1, 7⟩⟩, ⟨.string "],[", ⟨1, 8⟩⟩,
        ⟨.symbol .comma, ⟨1, 13⟩⟩, ⟨.int 1, ⟨1, 14⟩⟩, ⟨.symbol .comma, ⟨1, 15⟩⟩,
        ⟨.int 2, ⟨1, 16⟩⟩, ⟨.symbol .closeBracket, ⟨1, 17⟩⟩, ⟨.symbol .semicolon, ⟨1, 18⟩⟩],
        ⟨1, 19⟩⟩ :=
    TokenStream.ofText_of_toOption (by decide +kernel)
  have hone : Ast.ofText 4 "print [\"],[\",12];".toList = .ok one.toAst := by
    rw [ofText_of_stream hstream]
    rfl
  have htwo : Ast.ofText 4 "print [\"],[\",1,2];".toList = .ok two.toAst := by
    rw [ofText_of_stream hstream']
    rfl
  have hdiffer : one.toAst.arena ≠ two.toAst.arena := by decide +kernel
  obtain ⟨shown, shown', hshown, hshown', hiff⟩ := eq_iff_render_eq.1 4 4 _ _ _ _ _ _ hone htwo
    hstream hstream' (by decide) (by decide)
  exact ⟨_, _, shown, shown', hone, htwo, hshown, hshown', fun heq => hdiffer (hiff.mpr heq).1⟩

end Ast

end ScriptFacts
