import ScriptFacts.Program.ArenaReader
import ScriptFacts.Proofs.Program.ExactGrammar

/-!
# One pass or two

Reading straight into an arena builds what is built by reading a tree first and laying it out
afterwards, and it refuses the same tokens with the same words. So the nodes of a program stand in
the order in which the reader passes over the tokens that complete them.

Every builder is compared with its reader at an arbitrary arena: what is read is laid out on top of
it (`stored`). Where a chain grows to the left, the part that has been read is in the arena already,
and the rest of the chain starts from there.

* `Expr.build_eq`, `Stmt.build_eq`: the builders with a budget.
* `Ast.ofText_eq`: the program of a text.
-/
namespace ScriptFacts

variable {α β γ : Type}

/-! ## Laying out on top -/

theorem Expr.layOut_root (expr : Expr) (arena : Arena) :
    (expr.layOut arena).1 < (expr.layOut arena).2.size := by
  cases expr <;> simp [Expr.layOut, Arena.push, Arena.size]

/-- The arena with an expression laid out on top of it. -/
def Expr.onto (expr : Expr) (arena : Arena) : Ast :=
  ⟨(expr.layOut arena).2, (expr.layOut arena).1, expr.layOut_root arena⟩

/-- The arena with a statement laid out on top of it. -/
def Stmt.onto (stmt : Stmt) (arena : Arena) : Ast :=
  ⟨(stmt.layOut arena).2, (stmt.layOut arena).1, by have := stmt.layOut_root arena; omega⟩

/-- What was read, laid out on top of an arena. -/
def stored (lay : α → Arena → β) (arena : Arena) (outcome : Except Refusal (α × List Token)) :
    Except Refusal (β × List Token) :=
  outcome.map fun read => (lay read.1 arena, read.2)

/-- A builder lays out what a reader reads. -/
def Stores (lay : α → Arena → β) (builder : Builder β) (reader : Reader α) : Prop :=
  ∀ arena tokens, builder arena tokens = stored lay arena (reader tokens)

/-- One reader, and then another: the second builder goes on from what the first has built. -/
theorem stored_bind {δ : Type} {lay : α → Arena → β} {lay' : γ → Arena → δ} {arena arena' : Arena}
    {first : Except Refusal (α × List Token)}
    {next : α × List Token → Except Refusal (γ × List Token)}
    {next' : β × List Token → Except Refusal (δ × List Token)}
    (h : ∀ x rest, next' (lay x arena, rest) = stored lay' arena' (next (x, rest))) :
    (stored lay arena first >>= next') = stored lay' arena' (first >>= next) := by
  cases first with
  | error refusal => rfl
  | ok read => exact h read.1 read.2

/-- A mark that must stand here, and then a reader of what follows it. -/
theorem stored_expect {lay : α → Arena → β} {arena : Arena} {mark : Symbol}
    {expectation : Expectation} {tokens : List Token}
    {next : List Token → Except Refusal (α × List Token)}
    {next' : List Token → Except Refusal (β × List Token)}
    (h : ∀ rest, next' rest = stored lay arena (next rest)) :
    (expect mark expectation tokens >>= next')
      = stored lay arena (expect mark expectation tokens >>= next) := by
  cases expect mark expectation tokens with
  | error refusal => rfl
  | ok rest => exact h rest

namespace Expr

/-! ## Lists -/

section Readers

variable {builder : Builder Ast} {inner : Reader Expr} (hinner : Stores onto builder inner)

include hinner

theorem buildMore_eq (rounds : List Token) :
    Stores layOutAll (buildMore builder rounds) (readMore inner rounds) := by
  intro arena tokens
  fun_induction readMore inner rounds tokens generalizing arena with
  | case1 _ rounds rest ih =>
    rw [buildMore, hinner]
    refine stored_bind fun item rest => ?_
    simp only [ih]
    exact stored_bind fun items rest => rfl
  | case2 rounds tokens hend =>
    unfold buildMore
    split
    · exact (hend _ _ _ rfl rfl).elim
    · rfl

theorem buildList_eq (close : Symbol) (place : Place) :
    Stores layOutAll (buildList builder close place) (readList inner close place) := by
  intro arena tokens
  unfold buildList readList
  split
  · rfl
  · rw [hinner]
    refine stored_bind fun first rest => ?_
    simp only [buildMore_eq hinner _ _ _]
    refine stored_bind fun more rest => ?_
    exact stored_expect fun rest => rfl

/-! ## Atoms and index suffixes -/

theorem buildAtom_eq : Stores onto (buildAtom builder) (readAtom inner) := by
  intro arena tokens
  unfold readAtom
  split
  · rw [buildAtom, hinner]
    refine stored_bind fun expr rest => ?_
    exact stored_expect fun rest => rfl
  · rw [buildAtom, buildList_eq hinner]
    exact stored_bind fun elements rest => rfl
  · rfl
  · rfl
  · rfl
  · next hparen hbracket hint hstring hname =>
    unfold buildAtom
    split
    · exact (hparen _ rfl).elim
    · exact (hbracket _ rfl).elim
    · exact (hint _ _ rfl).elim
    · exact (hstring _ _ rfl).elim
    · exact (hname _ _ rfl).elim
    · rfl

theorem buildSuffixes_eq (rounds : List Token) (base : Expr) (arena : Arena)
    (tokens : List Token) :
    buildSuffixes builder rounds (base.onto arena) tokens
      = stored onto arena (readSuffixes inner rounds base tokens) := by
  fun_induction readSuffixes inner rounds base tokens with
  | case1 _ rounds base rest ih =>
    rw [buildSuffixes, hinner]
    refine stored_bind fun position rest => ?_
    exact stored_expect fun rest => ih position rest
  | case2 rounds base tokens hend =>
    unfold buildSuffixes
    split
    · exact (hend _ _ _ rfl rfl).elim
    · rfl

theorem buildIndexed_eq : Stores onto (buildIndexed builder) (readIndexed inner) := by
  intro arena tokens
  rw [buildIndexed, readIndexed, buildAtom_eq hinner]
  exact stored_bind fun base rest => buildSuffixes_eq hinner rest base arena rest

end Readers

/-! ## Binary layers -/

section Layers

variable (level : Level) {builder : Builder Ast} {operand : Reader Expr}
  (hoperand : Stores onto builder operand)

include hoperand

theorem buildOperations_eq (rounds : List Token) (left : Expr) (arena : Arena)
    (tokens : List Token) :
    buildOperations level builder rounds (left.onto arena) tokens
      = stored onto arena (readOperations level operand rounds left tokens) := by
  fun_induction readOperations level operand rounds left tokens with
  | case1 _ rounds left token rest op hop ih =>
    rw [buildOperations, hop, hoperand]
    exact stored_bind fun right rest => ih right rest
  | case2 _ rounds left token rest hop =>
    rw [buildOperations, hop]
    rfl
  | case3 rounds left tokens hend =>
    unfold buildOperations
    split
    · exact (hend _ _ _ _ rfl rfl).elim
    · rfl

theorem buildLayer_eq : Stores onto (buildLayer level builder) (readLayer level operand) := by
  intro arena tokens
  rw [buildLayer, readLayer, hoperand]
  exact stored_bind fun left rest => buildOperations_eq level hoperand rest left arena rest

end Layers

theorem buildComparison_eq {builder : Builder Ast} {inner : Reader Expr}
    (hinner : Stores onto builder inner) :
    Stores onto (buildComparison builder) (readComparison inner) :=
  buildLayer_eq .comparison (buildLayer_eq .sum (buildLayer_eq .product (buildIndexed_eq hinner)))

theorem buildDisjunction_eq {builder : Builder Ast} {negation : Reader Expr}
    (hnegation : Stores onto builder negation) :
    Stores onto (buildDisjunction builder) (readDisjunction negation) :=
  buildLayer_eq .disjunction (buildLayer_eq .conjunction hnegation)

/-! ## Nesting -/

theorem stores_refuseDepth (lay : α → Arena → β) :
    Stores lay (fun _ => refuseDepth) (refuseDepth : Reader α) := fun _ _ => rfl

theorem buildPrefixed_eq {deeper comparison : Builder Ast} {deeper' comparison' : Reader Expr}
    (hdeeper : Stores onto deeper deeper') (hcomparison : Stores onto comparison comparison') :
    Stores onto (buildPrefixed deeper comparison) (readPrefixed deeper' comparison') := by
  intro arena tokens
  unfold readPrefixed
  split
  · rw [buildPrefixed, hdeeper]
    exact stored_bind fun operand rest => rfl
  · next hnot =>
    unfold buildPrefixed
    split
    · next rest => exact (hnot rest rfl).elim
    · exact hcomparison arena _

theorem buildNegation_eq (budget : Nat) :
    Stores onto (buildNegation budget) (readNegation budget) := by
  induction budget with
  | zero =>
    exact buildPrefixed_eq (stores_refuseDepth onto) (buildComparison_eq (stores_refuseDepth onto))
  | succ budget ih =>
    exact buildPrefixed_eq ih (buildComparison_eq (buildDisjunction_eq ih))

theorem build_eq (budget : Nat) : Stores onto (build budget) (read budget) := by
  cases budget with
  | zero => exact stores_refuseDepth onto
  | succ budget => exact buildDisjunction_eq (buildNegation_eq budget)

end Expr

namespace Stmt

/-! ## Statements -/

section Readers

variable {expr inner : Builder Ast} {expr' : Reader Expr} {inner' : Reader Stmt}
  (hexpr : Stores Expr.onto expr expr') (hinner : Stores onto inner inner')

include hinner in
theorem buildBlock_eq (rounds : List Token) :
    Stores layOutAll (buildBlock inner rounds) (readBlock inner' rounds) := by
  intro arena tokens
  fun_induction readBlock inner' rounds tokens generalizing arena with
  | case1 => rfl
  | case2 rounds round token rest hopen ih =>
    rw [buildBlock, hinner]
    · refine stored_bind fun first rest => ?_
      simp only [ih]
      exact stored_bind fun more rest => rfl
    · exact hopen
  | case3 rounds tokens hclose hopen =>
    unfold buildBlock
    split
    · exact (hclose _ _ _ rfl rfl).elim
    · exact (hopen _ _ _ _ rfl rfl).elim
    · rfl

/-- A condition laid out on top of an arena, known by its handle, and a statement on top of it. -/
def guardedOnto (parts : Expr × Stmt) (arena : Arena) : Nat × Ast :=
  ((parts.1.onto arena).root, parts.2.onto (parts.1.onto arena).arena)

include hexpr hinner in
theorem buildGuarded_eq (word : Keyword) :
    Stores guardedOnto (buildGuarded expr inner word) (readGuarded expr' inner' word) := by
  intro arena tokens
  refine stored_expect fun rest => ?_
  rw [hexpr]
  refine stored_bind fun condition rest => ?_
  refine stored_expect fun rest => ?_
  rw [hinner]
  exact stored_bind fun body rest => rfl

include hexpr hinner in
theorem buildProc_eq : Stores onto (buildProc expr inner) (readProc expr' inner') := by
  intro arena tokens
  unfold readProc
  split
  · refine stored_expect fun rest => ?_
    rw [Expr.buildList_eq hexpr]
    refine stored_bind fun parameters rest => ?_
    simp only [hinner _ _]
    exact stored_bind fun body rest => rfl
  · next hname =>
    unfold buildProc
    split
    · exact (hname _ _ rfl).elim
    · rfl

include hexpr in
theorem buildCall_eq (name : String) :
    Stores onto (buildCall expr name) (readCall expr' name) := by
  intro arena tokens
  unfold buildCall readCall
  rw [Expr.buildList_eq hexpr]
  refine stored_bind fun arguments rest => ?_
  exact stored_expect fun rest => rfl

include hexpr in
theorem buildAssign_eq : Stores onto (buildAssign expr) (readAssign expr') := by
  intro arena tokens
  unfold buildAssign readAssign
  rw [hexpr]
  refine stored_bind fun target rest => ?_
  refine stored_expect fun rest => ?_
  rw [hexpr]
  refine stored_bind fun value rest => ?_
  exact stored_expect fun rest => rfl

include hexpr hinner in
theorem buildForm_eq : Stores onto (buildForm expr inner) (readForm expr' inner') := by
  intro arena tokens
  unfold readForm
  split
  · rw [buildForm, hexpr]
    refine stored_bind fun value rest => ?_
    exact stored_expect fun rest => rfl
  · rw [buildForm, buildBlock_eq hinner]
    exact stored_bind fun body rest => rfl
  · rw [buildForm, buildGuarded_eq hexpr hinner]
    exact stored_bind fun parts rest => rfl
  · rw [buildForm, buildGuarded_eq hexpr hinner]
    exact stored_bind fun parts rest => rfl
  · exact buildProc_eq hexpr hinner arena _
  · exact buildCall_eq hexpr _ arena _
  · next hprint hblock hcond hloop hproc hcall =>
    unfold buildForm
    split
    · exact (hprint _ rfl).elim
    · exact (hblock _ rfl).elim
    · exact (hcond _ rfl).elim
    · exact (hloop _ rfl).elim
    · exact (hproc _ rfl).elim
    · exact (hcall _ _ rfl).elim
    · exact buildAssign_eq hexpr arena tokens

end Readers

/-! ## Nesting -/

theorem build_eq (budget : Nat) : Stores onto (build budget) (read budget) := by
  induction budget with
  | zero => exact Expr.stores_refuseDepth onto
  | succ budget ih => exact buildForm_eq (Expr.build_eq budget) ih

end Stmt

namespace Ast

/-! ## Scripts -/

theorem ofTokens_eq (limit : Nat) (tokens : List Token) :
    ofTokens limit tokens = (Stmt.ofTokens limit tokens).map Stmt.toAst := by
  unfold ofTokens Stmt.ofTokens
  rw [Stmt.build_eq]
  cases Stmt.read limit tokens with
  | error refusal => rfl
  | ok read =>
    obtain ⟨stmt, rest⟩ := read
    cases rest <;> rfl

theorem ofStream_eq (limit : Nat) (stream : TokenStream) :
    ofStream limit stream = (Stmt.ofStream limit stream).map Stmt.toAst := by
  unfold ofStream Stmt.ofStream
  rw [ofTokens_eq]
  cases Stmt.ofTokens limit stream.tokens <;> rfl

theorem ofText_of_stream {limit : Nat} {text : List Char} {stream : TokenStream}
    (h : TokenStream.ofText text = .ok stream) : ofText limit text = ofStream limit stream := by
  unfold ofText
  rw [h]
  rfl

/-- A text is read into an arena as its tree is laid out, and refused as its tree is. -/
theorem ofText_eq (limit : Nat) (text : List Char) :
    ofText limit text = (Stmt.ofText limit text).map Stmt.toAst := by
  unfold ofText Stmt.ofText
  cases TokenStream.ofText text with
  | error error => rfl
  | ok stream => exact ofStream_eq limit stream

end Ast

end ScriptFacts
