import ScriptFacts.Proofs.Arena.Sorts

/-!
# Texts without a single quote

A text between single quotes is written as it is, so it can be told where it ends only if it has no
such quote in it. Among the texts of a program this has to be asked of the strings alone. The
strings are those of the script: laying out what was derived from tokens adds a string node for each
string among the tokens, in their order. All other texts are names, operators and numerals, in which
no quote can stand.

* `eq_of_append_cons`: what comes before the first mark of a text is told by the text.
* `Stmt.Derives.strings_layOut`: the strings of a program are the strings of its tokens.
* `Ast.exists_legible`: without quotes in the strings, there are none in the program.
-/
namespace ScriptFacts

/-- What stands before and after a written text. -/
def quoteMark : Char := '\''

/-- The text has no single quote in it. -/
def QuoteFree (text : String) : Prop :=
  quoteMark ∉ text.toList

instance (text : String) : Decidable (QuoteFree text) :=
  inferInstanceAs (Decidable (quoteMark ∉ text.toList))

/-- Two texts that go on with a mark after they have had none of it are cut at the same place. -/
theorem eq_of_append_cons {mark : Char} {first second rest more : List Char}
    (h : first ++ mark :: rest = second ++ mark :: more) (hfirst : mark ∉ first)
    (hsecond : mark ∉ second) : first = second ∧ rest = more := by
  induction first generalizing second with
  | nil =>
    cases second with
    | nil => exact ⟨rfl, (List.cons.inj h).2⟩
    | cons d second =>
      obtain rfl := (List.cons.inj h).1
      simp at hsecond
  | cons c first ih =>
    rw [List.mem_cons, not_or] at hfirst
    cases second with
    | nil => exact absurd (List.cons.inj h).1.symm hfirst.1
    | cons d second =>
      rw [List.mem_cons, not_or] at hsecond
      obtain ⟨rfl, hrest⟩ := List.cons.inj h
      obtain ⟨rfl, rfl⟩ := ih hrest hfirst.2 hsecond.2
      exact ⟨rfl, rfl⟩

/-- The marks that come after a name do not stand in it. -/
theorem Kind.marks_notMem_name (kind : Kind) :
    quoteMark ∉ kind.name.toList ∧ '(' ∉ kind.name.toList := by
  cases kind <;> decide

/-! ## Strings -/

/-- The text of a token that is a string. -/
def Token.string? : Token → Option String
  | string text => some text
  | int _ | name _ | keyword _ | symbol _ => none

/-- The text of a node that is a string. -/
def Node.string? : Node → Option String
  | string value => some value
  | _ => none

/-- The strings of an arena, in the order of their nodes. -/
def Arena.strings (arena : Arena) : List String :=
  arena.nodes.toList.filterMap Node.string?

/-- The strings among tokens, in order. -/
def Token.strings (tokens : List Token) : List String :=
  tokens.filterMap Token.string?

theorem Arena.strings_push (arena : Arena) (node : Node) :
    (arena.push node).2.strings = arena.strings ++ node.string?.toList := by
  cases h : node.string? <;> simp [strings, push, h]

theorem Arena.mem_strings {arena : Arena} {handle : Nat} {text : String}
    (h : arena.get? handle = some (.string text)) : text ∈ arena.strings := by
  obtain ⟨hlt, hnode⟩ := Array.getElem?_eq_some_iff.mp h
  have hmem : Node.string text ∈ arena.nodes.toList :=
    Array.mem_toList_iff.mpr (hnode ▸ Array.getElem_mem hlt)
  exact List.mem_filterMap.mpr ⟨_, hmem, rfl⟩

namespace Token

@[simp] theorem strings_nil : strings [] = [] := rfl

@[simp] theorem strings_append (tokens more : List Token) :
    strings (tokens ++ more) = strings tokens ++ strings more :=
  List.filterMap_append

@[simp] theorem strings_string (text : String) (tokens : List Token) :
    strings (.string text :: tokens) = text :: strings tokens := rfl

@[simp] theorem strings_int (value : Nat) (tokens : List Token) :
    strings (.int value :: tokens) = strings tokens := rfl

@[simp] theorem strings_name (text : String) (tokens : List Token) :
    strings (.name text :: tokens) = strings tokens := rfl

@[simp] theorem strings_keyword (word : Keyword) (tokens : List Token) :
    strings (.keyword word :: tokens) = strings tokens := rfl

@[simp] theorem strings_symbol (mark : Symbol) (tokens : List Token) :
    strings (.symbol mark :: tokens) = strings tokens := rfl

@[simp] theorem strings_operator (op : BinaryOp) (tokens : List Token) :
    strings (op.token :: tokens) = strings tokens := by
  cases op <;> rfl

theorem mem_strings {tokens : List Token} {text : String} :
    text ∈ strings tokens ↔ .string text ∈ tokens := by
  unfold strings
  rw [List.mem_filterMap]
  constructor
  · rintro ⟨token, hmem, htoken⟩
    cases token with
    | string other =>
      obtain rfl := Option.some.inj htoken
      exact hmem
    | int _ | name _ | keyword _ | symbol _ => simp [string?] at htoken
  · exact fun hmem => ⟨_, hmem, rfl⟩

end Token

mutual

/-- An expression adds the strings of its tokens, wherever it is laid out. -/
theorem Expr.Derives.strings_layOut {layer : Layer} {depth : Nat} {tokens : List Token}
    {expr : Expr} (h : Expr.Derives layer depth tokens expr) (arena : Arena) :
    (expr.layOut arena).2.strings = arena.strings ++ Token.strings tokens := by
  match h with
  | .exp inner | .operand inner | .comparison inner | .atom inner =>
    exact Expr.Derives.strings_layOut inner arena
  | .parenthesized inner => simpa using Expr.Derives.strings_layOut inner arena
  | .not inner =>
    have hinner := Expr.Derives.strings_layOut inner arena
    simp [Expr.layOut, Arena.strings_push, Node.string?, hinner]
  | @Expr.Derives.binary _ _ _ left _ _ hleft hright =>
    have hleft := Expr.Derives.strings_layOut hleft arena
    have hright := Expr.Derives.strings_layOut hright (left.layOut arena).2
    simp [Expr.layOut, Arena.strings_push, Node.string?, hleft, hright]
  | @Expr.Derives.index _ _ _ base _ hbase hposition =>
    have hbase := Expr.Derives.strings_layOut hbase arena
    have hposition := Expr.Derives.strings_layOut hposition (base.layOut arena).2
    simp [Expr.layOut, Arena.strings_push, Node.string?, hbase, hposition]
  | .int _ | .string _ | .var _ => simp [Expr.layOut, Arena.strings_push, Node.string?]
  | .array inner =>
    have hinner := Expr.DerivesList.strings_layOut inner arena
    simp [Expr.layOut, Arena.strings_push, Node.string?, hinner]

theorem Expr.DerivesList.strings_layOut {depth : Nat} {tokens : List Token} {exprs : List Expr}
    (h : Expr.DerivesList depth tokens exprs) (arena : Arena) :
    (Expr.layOutAll exprs arena).2.strings = arena.strings ++ Token.strings tokens := by
  match h with
  | .empty => simp [Expr.layOutAll]
  | .some inner => exact Expr.DerivesItems.strings_layOut inner arena

theorem Expr.DerivesItems.strings_layOut {depth : Nat} {tokens : List Token} {exprs : List Expr}
    (h : Expr.DerivesItems depth tokens exprs) (arena : Arena) :
    (Expr.layOutAll exprs arena).2.strings = arena.strings ++ Token.strings tokens := by
  match h with
  | .one inner =>
    have hinner := Expr.Derives.strings_layOut inner arena
    simp [Expr.layOutAll, hinner]
  | @Expr.DerivesItems.more _ _ _ first _ hfirst hrest =>
    have hfirst := Expr.Derives.strings_layOut hfirst arena
    have hrest := Expr.DerivesItems.strings_layOut hrest (first.layOut arena).2
    simp [Expr.layOutAll, hfirst, hrest]

end

mutual

/-- So does a statement. -/
theorem Stmt.Derives.strings_layOut {depth : Nat} {tokens : List Token} {stmt : Stmt}
    (h : Stmt.Derives depth tokens stmt) (arena : Arena) :
    (stmt.layOut arena).2.strings = arena.strings ++ Token.strings tokens := by
  match h with
  | .print hvalue =>
    have hvalue := hvalue.strings_layOut arena
    simp [Stmt.layOut, Arena.strings_push, Node.string?, hvalue]
  | @Stmt.Derives.assign _ _ _ target _ htarget hvalue =>
    have htarget := htarget.strings_layOut arena
    have hvalue := hvalue.strings_layOut (target.layOut arena).2
    simp [Stmt.layOut, Arena.strings_push, Node.string?, htarget, hvalue]
  | .block hbody =>
    have hbody := Stmt.DerivesAll.strings_layOut hbody arena
    simp [Stmt.layOut, Arena.strings_push, Node.string?, hbody]
  | @Stmt.Derives.cond _ _ _ condition _ hcondition hbody
  | @Stmt.Derives.loop _ _ _ condition _ hcondition hbody =>
    have hcondition := hcondition.strings_layOut arena
    have hbody := Stmt.Derives.strings_layOut hbody (condition.layOut arena).2
    simp [Stmt.layOut, Arena.strings_push, Node.string?, hcondition, hbody]
  | @Stmt.Derives.proc _ _ _ parameters _ _ hparameters hbody =>
    have hparameters := hparameters.strings_layOut arena
    have hbody := Stmt.Derives.strings_layOut hbody (Expr.layOutAll parameters arena).2
    simp [Stmt.layOut, Arena.strings_push, Node.string?, hparameters, hbody]
  | .call _ harguments =>
    have harguments := harguments.strings_layOut arena
    simp [Stmt.layOut, Arena.strings_push, Node.string?, harguments]

theorem Stmt.DerivesAll.strings_layOut {depth : Nat} {tokens : List Token} {body : List Stmt}
    (h : Stmt.DerivesAll depth tokens body) (arena : Arena) :
    (Stmt.layOutAll body arena).2.strings = arena.strings ++ Token.strings tokens := by
  match h with
  | .nil => simp [Stmt.layOutAll]
  | @Stmt.DerivesAll.cons _ _ _ first _ hfirst hrest =>
    have hfirst := Stmt.Derives.strings_layOut hfirst arena
    have hrest := Stmt.DerivesAll.strings_layOut hrest (first.layOut arena).2
    simp [Stmt.layOutAll, hfirst, hrest]

end

/-! ## Other texts -/

/-- The field has digits, or a text without quotes; of handles nothing is asked. -/
def Field.Legible : Field Nat → Prop
  | .digits written => written ≠ "" ∧ ∀ c ∈ written.toList, c.isDigit = true
  | .text written => QuoteFree written
  | .child _ | .children _ => True

/-- All texts in an arena can be written between quotes, or are digits. -/
def Arena.Legible (arena : Arena) : Prop :=
  ∀ handle node, arena.get? handle = some node → ∀ field ∈ node.fields, field.Legible

theorem QuoteFree.of_isWord {text : String} (h : isWord text.toList = true) : QuoteFree text := by
  intro hmem
  obtain ⟨c, letters, hletters, hstart, hmore⟩ := exists_of_isWord h
  rw [hletters] at hmem
  rcases List.mem_cons.mp hmem with rfl | hmem
  · exact absurd hstart (by decide +kernel)
  · exact absurd (hmore quoteMark hmem) (by decide +kernel)

/-- What can be written in a script as something else than a string has no quote in it. -/
theorem Leaf.Admits.quoteFree {leaf : Leaf} {text : String} (h : leaf.Admits text)
    (hstring : leaf ≠ .string) (hnumeral : leaf ≠ .numeral) : QuoteFree text := by
  cases leaf with
  | name => exact .of_isWord (Spells.writable h).1
  | numeral => exact absurd rfl hnumeral
  | string => exact absurd rfl hstring
  | operator =>
    have hall : ∀ spelling ∈ ["or", "and", "==", "<", ">", "+", "-", "*", "/"],
        QuoteFree spelling := by decide
    exact hall text h
  | negation =>
    obtain rfl : text = "not" := h
    decide

/-- A field of a well-sorted node is legible, unless it is the text of a string. -/
theorem Field.Suits.legible {arena : Arena} {sort : FieldSort} {field : Field Nat}
    (h : field.Suits arena sort) (hsort : sort ≠ .leaf .string) : field.Legible := by
  cases h with
  | digits htext => exact ⟨htext.1, htext.2.1⟩
  | @text leaf text hleaf htext =>
    exact htext.quoteFree (fun hstring => hsort (by rw [hstring])) hleaf
  | child _ | children _ => trivial

theorem Arena.WellSorted.legible {arena : Arena} (h : arena.WellSorted)
    (hstrings : ∀ text ∈ arena.strings, QuoteFree text) : arena.Legible := by
  intro handle node hnode field hfield
  by_cases hstring : ∃ text, node = .string text
  · obtain ⟨text, rfl⟩ := hstring
    obtain rfl := List.mem_singleton.mp hfield
    exact hstrings text (Arena.mem_strings hnode)
  · have hsorts := h handle node hnode
    obtain ⟨index, hlt, rfl⟩ := List.mem_iff_getElem.mp hfield
    have hlt' : index < node.kind.signature.length := hsorts.length_eq.symm ▸ hlt
    refine Field.Suits.legible (hsorts.get hlt' hlt) fun hsort => hstring ?_
    -- Only the nodes that are strings have a field for a string.
    have hmem : .leaf .string ∈ node.kind.signature := hsort ▸ List.getElem_mem hlt'
    cases node with
    | string text => exact ⟨text, rfl⟩
    | _ => simp [Node.kind, Kind.signature] at hmem

/-! ## Scripts -/

/-- No string among the tokens of a text has a single quote in it. -/
def TokenStream.QuoteFree (stream : TokenStream) : Prop :=
  ∀ text, .string text ∈ stream.tokens → ScriptFacts.QuoteFree text

theorem TokenStream.quoteFree_iff {stream : TokenStream} :
    stream.QuoteFree ↔ ∀ text ∈ Token.strings stream.tokens, ScriptFacts.QuoteFree text :=
  forall_congr' fun _ => imp_congr_left Token.mem_strings.symm

instance (stream : TokenStream) : Decidable stream.QuoteFree :=
  decidable_of_iff _ TokenStream.quoteFree_iff.symm

/-- The program of a text without quotes in its strings is that of a statement, and its texts have
no quotes. -/
theorem Ast.exists_legible {limit : Nat} {text : List Char} {stream : TokenStream} {ast : Ast}
    (hast : Ast.ofText limit text = .ok ast) (hstream : TokenStream.ofText text = .ok stream)
    (hfree : stream.QuoteFree) : ∃ stmt : Stmt, stmt.toAst = ast ∧ ast.arena.Legible := by
  rw [Ast.ofText_eq] at hast
  cases hread : Stmt.ofText limit text with
  | error error => simp [hread, Except.map] at hast
  | ok stmt =>
    rw [hread] at hast
    obtain rfl := Except.ok.inj hast
    obtain ⟨other, hother, hderives⟩ := Stmt.ofText_eq_ok_iff.mp hread
    obtain rfl := Except.ok.inj (hstream.symm.trans hother)
    have hwritable := hderives.writable (TokenStream.writable_of_ofText hstream)
    refine ⟨stmt, rfl, (Stmt.wellSorted_toAst hwritable).1.legible fun text hmem => ?_⟩
    have hstrings : stmt.toAst.arena.strings = Token.strings stream.tokens :=
      hderives.strings_layOut .empty
    rw [hstrings] at hmem
    exact TokenStream.quoteFree_iff.mp hfree text hmem

end ScriptFacts
