import ScriptFacts.Proofs.Program.Completeness

/-!
# One token of lookahead

A reader decides by the tokens that it passes over and the token after them. Put other tokens in
place of the later ones, and give it more levels of nesting: it reads the same value or refuses the
same token, unless it had run out of levels.

`Outlasts` says this of one outcome. Where a reader loops, the rounds are part of it; any number
of rounds that suffices for the tokens gives the same outcome.

* `Outlasts.bind`: two readers in a row.
* `Stmt.outlasts_read`: a statement read within a budget is read the same within a larger one.
* `Stmt.not_derives_of_ofTokens`: a refused token continues no statement of the grammar.
-/
namespace ScriptFacts

variable {α β : Type}

/-- What a reader says, apart from the tokens that it leaves. -/
inductive Answer (α : Type)
  | value (x : α)
  | refusal (expectation : Expectation)

/-- The outcome that leaves `rest`. -/
def Answer.leaving (rest : List Token) : Answer α → Except Refusal (α × List Token)
  | value x => .ok (x, rest)
  | refusal expectation => .error (.unexpected expectation rest)

/-- An outcome of reading `tokens` is also what `other` gives, whatever comes after the next
token. -/
inductive Outlasts (other : List Token → Reader α) (tokens : List Token) :
    Except Refusal (α × List Token) → Prop
  | answer {passed rest} (answer : Answer α) (htokens : tokens = passed ++ rest)
    (hother : ∀ rounds more, more.head? = rest.head? → (passed ++ more).length ≤ rounds.length →
      other rounds (passed ++ more) = answer.leaving more) :
    Outlasts other tokens (answer.leaving rest)
  | tooDeep (rest : List Token) : Outlasts other tokens (.error (.tooDeep rest))

namespace Outlasts

variable {other : List Token → Reader α} {tokens rest : List Token}

/-- Nothing more is read. -/
theorem done {x : α} (h : ∀ rounds more, more.head? = tokens.head? →
    more.length ≤ rounds.length → other rounds more = .ok (x, more)) :
    Outlasts other tokens (.ok (x, tokens)) :=
  .answer (.value x) (List.nil_append _).symm h

/-- The next token is refused at once. -/
theorem refused {expectation : Expectation} (h : ∀ rounds more, more.head? = tokens.head? →
    more.length ≤ rounds.length → other rounds more = .error (.unexpected expectation more)) :
    Outlasts other tokens (.error (.unexpected expectation tokens)) :=
  .answer (.refusal expectation) (List.nil_append _).symm h

/-- Two lists that go on alike after a common beginning have the same next token. -/
theorem head?_append {passed more rest : List Token} (h : more.head? = rest.head?) :
    (passed ++ more).head? = (passed ++ rest).head? := by
  cases passed with
  | nil => exact h
  | cons token passed => rfl

/-- It is enough to know the other reader on tokens with the same first token. -/
theorem of_head {next : List Token → Reader α} {outcome : Except Refusal (α × List Token)}
    (heq : ∀ rounds more, more.head? = tokens.head? → more.length ≤ rounds.length →
      other rounds more = next rounds more)
    (h : Outlasts next tokens outcome) : Outlasts other tokens outcome := by
  cases h with
  | answer answer htokens hnext =>
    refine .answer answer htokens fun rounds more hmore hrounds => ?_
    rw [heq rounds _ (htokens ▸ head?_append hmore) hrounds, hnext rounds more hmore hrounds]
  | tooDeep rest => exact .tooDeep rest

/-- It is enough to know the other reader on tokens with the same first two, if the first token is
passed over. -/
theorem of_second {token : Token} {next : List Token → Reader α} {expectation : Expectation}
    {outcome : Except Refusal (α × List Token)}
    (hpasses : next [token] [token] = .error (.unexpected expectation []))
    (heq : ∀ rounds more, more.head? = rest.head? →
      other rounds (token :: more) = next rounds (token :: more))
    (h : Outlasts next (token :: rest) outcome) : Outlasts other (token :: rest) outcome := by
  cases h with
  | @answer passed after answer htokens hnext =>
    cases passed with
    | nil =>
      have hread := hnext [token] [token] (by rw [List.nil_append] at htokens; simp [← htokens])
        (Nat.le_refl _)
      rw [List.nil_append, hpasses] at hread
      cases answer <;> simp [Answer.leaving] at hread
    | cons first passed =>
      obtain ⟨rfl, rfl⟩ := List.cons.inj htokens
      refine .answer answer htokens fun rounds more hmore hrounds => ?_
      have hsecond : (passed ++ more).head? = (passed ++ after).head? := head?_append hmore
      rw [List.cons_append, heq rounds _ hsecond]
      exact hnext rounds more hmore hrounds
  | tooDeep rest => exact .tooDeep rest

/-- A token passed over; as many rounds must be left as there are tokens after it. -/
theorem pass {token : Token} {next : List Token → Reader α}
    {outcome : Except Refusal (α × List Token)}
    (hstep : ∀ rounds more, more.length < rounds.length →
      ∃ left, more.length ≤ left.length ∧ other rounds (token :: more) = next left more)
    (h : Outlasts next rest outcome) : Outlasts other (token :: rest) outcome := by
  cases h with
  | @answer passed rest answer htokens hnext =>
    refine .answer answer (by rw [htokens, List.cons_append]) fun rounds more hmore hrounds => ?_
    obtain ⟨left, hleft, heq⟩ := hstep rounds (passed ++ more) hrounds
    rw [List.cons_append, heq, hnext left more hmore hleft]
  | tooDeep rest => exact .tooDeep rest

/-- A token passed over, and no round with it. -/
theorem cons {token : Token} {next : List Token → Reader α}
    {outcome : Except Refusal (α × List Token)}
    (hstep : ∀ rounds more, other rounds (token :: more) = next rounds more)
    (h : Outlasts next rest outcome) : Outlasts other (token :: rest) outcome :=
  .pass (fun rounds more hrounds => ⟨rounds, Nat.le_of_lt hrounds, hstep rounds more⟩) h

/-- A token passed over, and a round with it. -/
theorem round {token : Token} {next : List Token → Reader α}
    {outcome : Except Refusal (α × List Token)}
    (hstep : ∀ round rounds more, other (round :: rounds) (token :: more) = next rounds more)
    (h : Outlasts next rest outcome) : Outlasts other (token :: rest) outcome := by
  refine .pass (fun rounds more hrounds => ?_) h
  cases rounds with
  | nil => simp at hrounds
  | cons round rounds =>
    exact ⟨rounds, by simp at hrounds; omega, hstep round rounds more⟩

/-- A reader that takes the tokens themselves as its rounds. -/
theorem of_rounds {outcome : Except Refusal (α × List Token)} (h : Outlasts other tokens outcome) :
    Outlasts (fun _ tokens => other tokens tokens) tokens outcome := by
  cases h with
  | answer answer htokens hother =>
    exact .answer answer htokens fun _ more hmore _ => hother _ more hmore (Nat.le_refl _)
  | tooDeep rest => exact .tooDeep rest

/-- One reader, and then another that goes on with the value and the tokens after it, with the
rounds that are left. -/
theorem andThen {first : Reader α} {next : α × List Token → Except Refusal (β × List Token)}
    {next' : List Token → α × List Token → Except Refusal (β × List Token)}
    (left : List Token → List Token)
    (hleft : ∀ passed x rest, first tokens = .ok (x, rest) → tokens = passed ++ rest →
      ∀ (rounds more : List Token), (passed ++ more).length ≤ rounds.length →
        more.length ≤ (left rounds).length)
    (hfirst : Outlasts other tokens (first tokens))
    (hnext : ∀ x rest, first tokens = .ok (x, rest) → rest.length ≤ tokens.length →
      Outlasts (fun rounds rest => next' rounds (x, rest)) rest (next (x, rest))) :
    Outlasts (fun rounds tokens => other rounds tokens >>= next' (left rounds)) tokens
      (first tokens >>= next) := by
  generalize first tokens = outcome at hfirst hleft hnext
  cases hfirst with
  | @answer passed rest answer htokens hother =>
    cases answer with
    | refusal expectation =>
      refine .answer (.refusal expectation) htokens fun rounds more hmore hrounds => ?_
      simp only [hother rounds more hmore hrounds]
      rfl
    | value x =>
      show Outlasts _ tokens (next (x, rest))
      have hn := hnext x rest rfl (by simp [htokens])
      generalize next (x, rest) = after at hn
      cases hn with
      | @answer further rest answer hrest hother' =>
        refine .answer answer (by rw [htokens, hrest, List.append_assoc])
          fun rounds more hmore hrounds => ?_
        rw [List.append_assoc] at hrounds ⊢
        simp only [hother rounds _ (hrest ▸ head?_append hmore) hrounds]
        exact hother' _ more hmore (hleft passed x _ rfl htokens rounds _ hrounds)
      | tooDeep rest => exact .tooDeep rest
  | tooDeep rest => exact .tooDeep rest

/-- Two readers in a row. -/
theorem bind {first : Reader α} {next : α × List Token → Except Refusal (β × List Token)}
    {next' : List Token → α × List Token → Except Refusal (β × List Token)}
    (hfirst : Outlasts other tokens (first tokens))
    (hnext : ∀ x rest, rest.length ≤ tokens.length →
      Outlasts (fun rounds rest => next' rounds (x, rest)) rest (next (x, rest))) :
    Outlasts (fun rounds tokens => other rounds tokens >>= next' rounds) tokens
      (first tokens >>= next) := by
  refine .andThen id (fun passed _ _ _ _ rounds more hrounds => ?_) hfirst
    fun x rest _ => hnext x rest
  rw [List.length_append] at hrounds
  exact Nat.le_trans (Nat.le_add_left _ _) hrounds

/-- Two readers in a row, the first of which passes over a token and so pays for a round. -/
theorem bind_tail {first : Reader α} {next : α × List Token → Except Refusal (β × List Token)}
    (next' : List Token → α × List Token → Except Refusal (β × List Token))
    (hshorter : ∀ x rest, first tokens = .ok (x, rest) → rest.length < tokens.length)
    (hfirst : Outlasts other tokens (first tokens))
    (hnext : ∀ x rest, rest.length < tokens.length →
      Outlasts (fun rounds rest => next' rounds (x, rest)) rest (next (x, rest))) :
    Outlasts (fun rounds tokens => other rounds tokens >>= next' rounds.tail) tokens
      (first tokens >>= next) := by
  refine .andThen List.tail (fun passed x rest hread htokens rounds more hrounds => ?_) hfirst
    fun x rest hread _ => hnext x rest (hshorter x rest hread)
  have hlt := hshorter x rest hread
  rw [htokens, List.length_append] at hlt
  rw [List.length_append] at hrounds
  rw [List.length_tail]
  omega

/-- A mark that must stand here, and then a reader of what follows it. -/
theorem expect {mark : Symbol} {expectation : Expectation}
    {next : List Token → Except Refusal (α × List Token)}
    (hnext : ∀ rest, rest.length ≤ tokens.length → Outlasts other rest (next rest)) :
    Outlasts (fun rounds tokens => expect mark expectation tokens >>= other rounds) tokens
      (expect mark expectation tokens >>= next) := by
  cases tokens with
  | nil =>
    refine .refused fun rounds more hmore _ => ?_
    obtain rfl : more = [] := by simpa using hmore
    rfl
  | cons token rest =>
    by_cases h : token = .symbol mark
    · subst h
      simp only [ScriptFacts.expect, if_true]
      refine .cons (fun rounds more => ?_) (hnext rest (by simp))
      simp only [if_true]
      rfl
    · simp only [ScriptFacts.expect, if_neg h]
      refine .refused fun rounds more hmore _ => ?_
      obtain ⟨tail, rfl⟩ : ∃ tail, more = token :: tail := by
        cases more <;> simp_all
      simp only [if_neg h]
      rfl

/-- A value that is wrapped when it has been read. -/
theorem map {first : Reader α} {wrap : α → β} (hfirst : Outlasts other tokens (first tokens)) :
    Outlasts (fun rounds tokens => other rounds tokens >>= fun read => .ok (wrap read.1, read.2))
      tokens (first tokens >>= fun read => .ok (wrap read.1, read.2)) :=
  .bind hfirst fun _ _ _ => .done fun _ _ _ _ => rfl

end Outlasts

/-! ## Where a loop stops -/

/-- With a round for each token, a loop stops only where the token that it goes on with is not
next. -/
theorem head?_ne_of_stops {rounds tokens : List Token} {token : Token}
    (hrounds : tokens.length ≤ rounds.length)
    (hstops : ∀ round left rest, rounds = round :: left → tokens = token :: rest → False) :
    tokens.head? ≠ some token := by
  intro hhead
  obtain ⟨rest, rfl⟩ := List.head?_eq_some_iff.mp hhead
  cases rounds with
  | nil => simp at hrounds
  | cons round left => exact hstops round left rest rfl rfl

/-- A loop that goes on with any token stops at the end. -/
theorem eq_nil_of_stops {rounds tokens : List Token} (hrounds : tokens.length ≤ rounds.length)
    (hstops : ∀ round left token rest, rounds = round :: left → tokens = token :: rest → False) :
    tokens = [] := by
  rw [← List.head?_eq_none_iff, Option.eq_none_iff_forall_ne_some]
  intro token
  exact head?_ne_of_stops hrounds fun round left rest => hstops round left token rest

namespace Expr

/-! ## Lists -/

theorem readMore_of_head {inner : Reader Expr} {rounds tokens : List Token}
    (h : tokens.head? ≠ some (.symbol .comma)) :
    readMore inner rounds tokens = .ok ([], tokens) := by
  unfold readMore
  split
  · simp at h
  · rfl

theorem readAtom_of_head {inner : Reader Expr} {tokens : List Token}
    (h : ∀ token, tokens.head? = some token → ¬ Layer.atom.Begins token) :
    readAtom inner tokens = .error (.unexpected .expression tokens) := by
  cases tokens with
  | nil => rfl
  | cons token rest =>
    have hbegins := h token rfl
    cases token with
    | int value | string text | name text => exact absurd trivial hbegins
    | keyword word => rfl
    | symbol mark =>
      unfold readAtom
      split
      · next heq => exact absurd (.inl (by simpa using (List.cons.inj heq).1)) hbegins
      · next heq => exact absurd (.inr (by simpa using (List.cons.inj heq).1)) hbegins
      all_goals simp_all

theorem readSuffixes_of_head {inner : Reader Expr} {rounds tokens : List Token} {base : Expr}
    (h : tokens.head? ≠ some (.symbol .openBracket)) :
    readSuffixes inner rounds base tokens = .ok (base, tokens) := by
  unfold readSuffixes
  split
  · simp at h
  · rfl

theorem readOperations_of_head {level : Level} {operand : Reader Expr}
    {rounds tokens : List Token} {left : Expr}
    (h : ∀ token, tokens.head? = some token → BinaryOp.ofToken? level token = none) :
    readOperations level operand rounds left tokens = .ok (left, tokens) := by
  unfold readOperations
  split
  · rw [h _ rfl]
  · rfl

section Readers

variable {inner other : Reader Expr}
  (hinner : ∀ tokens, Outlasts (fun _ => other) tokens (inner tokens))

include hinner

theorem outlasts_readMore (rounds tokens : List Token) (hrounds : tokens.length ≤ rounds.length) :
    Outlasts (readMore other) tokens (readMore inner rounds tokens) := by
  fun_induction readMore inner rounds tokens with
  | case1 _ rounds rest ih =>
    simp only [List.length_cons, Nat.add_le_add_iff_right] at hrounds
    refine .round (fun _ _ _ => rfl) (.bind (hinner rest) fun item rest hrest => ?_)
    exact .map (ih rest (Nat.le_trans hrest hrounds))
  | case2 rounds tokens hend =>
    have hhead : tokens.head? ≠ some (.symbol .comma) := head?_ne_of_stops hrounds hend
    exact .done fun _ _ hmore _ => readMore_of_head (hmore ▸ hhead)

theorem outlasts_readList (close : Symbol) (place : Place) (tokens : List Token) :
    Outlasts (fun _ => readList other close place) tokens (readList inner close place tokens) := by
  by_cases h : tokens.head? = some (.symbol close)
  · obtain ⟨rest, rfl⟩ : ∃ rest, tokens = .symbol close :: rest := by
      cases tokens with
      | nil => simp at h
      | cons token rest => exact ⟨rest, by simpa using h⟩
    have hread : ∀ (reader : Reader Expr) more,
        readList reader close place (.symbol close :: more) = .ok ([], more) := by
      simp [readList]
    rw [hread]
    exact .cons (fun _ more => hread other more) (.done fun _ _ _ _ => rfl)
  · rw [readList, if_neg h]
    refine .of_head (fun _ more hmore _ => by rw [readList, if_neg (hmore ▸ h)]) ?_
    refine .bind (hinner tokens) fun first rest _ => ?_
    have hmore := (outlasts_readMore hinner rest rest (Nat.le_refl _)).of_rounds
    refine .bind hmore fun more rest _ => ?_
    exact .expect fun rest _ => .done fun _ _ _ _ => rfl

/-! ## Atoms and index suffixes -/

theorem outlasts_readAtom (tokens : List Token) :
    Outlasts (fun _ => readAtom other) tokens (readAtom inner tokens) := by
  unfold readAtom
  split
  · refine .cons (fun _ _ => rfl) (.bind (hinner _) fun expr rest _ => ?_)
    exact .expect fun rest _ => .done fun _ _ _ _ => rfl
  · exact .cons (fun _ _ => rfl) (.map (outlasts_readList hinner _ _ _))
  · exact .cons (fun _ _ => rfl) (.done fun _ _ _ _ => rfl)
  · exact .cons (fun _ _ => rfl) (.done fun _ _ _ _ => rfl)
  · exact .cons (fun _ _ => rfl) (.done fun _ _ _ _ => rfl)
  · next hparen hbracket hint hstring hname =>
    have hbegins : ∀ token, tokens.head? = some token → ¬ Layer.atom.Begins token := by
      intro token hhead hbegins
      obtain ⟨rest, rfl⟩ := List.head?_eq_some_iff.mp hhead
      cases token with
      | int value => exact hint value rest rfl
      | string text => exact hstring text rest rfl
      | name text => exact hname text rest rfl
      | keyword word => exact absurd hbegins.2 (by decide)
      | symbol mark =>
        rcases hbegins with rfl | rfl
        · exact hparen rest rfl
        · exact hbracket rest rfl
    exact .refused fun _ more hmore _ => readAtom_of_head (hmore ▸ hbegins)

theorem outlasts_readSuffixes (rounds tokens : List Token) (base : Expr)
    (hrounds : tokens.length ≤ rounds.length) :
    Outlasts (fun rounds => readSuffixes other rounds base) tokens
      (readSuffixes inner rounds base tokens) := by
  fun_induction readSuffixes inner rounds base tokens with
  | case1 _ rounds base rest ih =>
    simp only [List.length_cons, Nat.add_le_add_iff_right] at hrounds
    refine .round (fun _ _ _ => rfl) (.bind (hinner rest) fun position rest hrest => ?_)
    refine .expect fun after hafter => ?_
    exact ih position after (Nat.le_trans hafter (Nat.le_trans hrest hrounds))
  | case2 rounds base tokens hend =>
    have hhead : tokens.head? ≠ some (.symbol .openBracket) := head?_ne_of_stops hrounds hend
    exact .done fun _ _ hmore _ => readSuffixes_of_head (hmore ▸ hhead)

theorem outlasts_readIndexed (tokens : List Token) :
    Outlasts (fun _ => readIndexed other) tokens (readIndexed inner tokens) :=
  .bind (outlasts_readAtom hinner tokens) fun base rest _ =>
    (outlasts_readSuffixes hinner rest rest base (Nat.le_refl _)).of_rounds

end Readers

/-! ## Binary layers -/

section Layers

variable (level : Level) {operand other : Reader Expr}
  (hoperand : ∀ tokens, Outlasts (fun _ => other) tokens (operand tokens))

include hoperand

theorem outlasts_readOperations (rounds tokens : List Token) (left : Expr)
    (hrounds : tokens.length ≤ rounds.length) :
    Outlasts (fun rounds => readOperations level other rounds left) tokens
      (readOperations level operand rounds left tokens) := by
  fun_induction readOperations level operand rounds left tokens with
  | case1 _ rounds left token rest op hop ih =>
    simp only [List.length_cons, Nat.add_le_add_iff_right] at hrounds
    refine .round (fun _ _ _ => by rw [readOperations, hop]) ?_
    refine .bind (hoperand rest) fun right rest hrest => ?_
    exact ih right rest (Nat.le_trans hrest hrounds)
  | case2 _ rounds left token rest hop =>
    refine .done fun _ more hmore _ => readOperations_of_head fun next hnext => ?_
    rw [hmore] at hnext
    obtain rfl : token = next := by simpa using hnext
    exact hop
  | case3 rounds left tokens hend =>
    obtain rfl : tokens = [] := eq_nil_of_stops hrounds hend
    refine .done fun _ more hmore _ => readOperations_of_head fun next hnext => ?_
    rw [hmore] at hnext
    simp at hnext

theorem outlasts_readLayer (tokens : List Token) :
    Outlasts (fun _ => readLayer level other) tokens (readLayer level operand tokens) :=
  .bind (hoperand tokens) fun left rest _ =>
    (outlasts_readOperations level hoperand rest rest left (Nat.le_refl _)).of_rounds

end Layers

theorem outlasts_readComparison {inner other : Reader Expr}
    (hinner : ∀ tokens, Outlasts (fun _ => other) tokens (inner tokens)) (tokens : List Token) :
    Outlasts (fun _ => readComparison other) tokens (readComparison inner tokens) :=
  outlasts_readLayer .comparison (outlasts_readLayer .sum (outlasts_readLayer .product
    (outlasts_readIndexed hinner))) tokens

theorem outlasts_readDisjunction {negation other : Reader Expr}
    (hnegation : ∀ tokens, Outlasts (fun _ => other) tokens (negation tokens))
    (tokens : List Token) :
    Outlasts (fun _ => readDisjunction other) tokens (readDisjunction negation tokens) :=
  outlasts_readLayer .disjunction (outlasts_readLayer .conjunction hnegation) tokens

/-! ## Nesting -/

theorem readPrefixed_of_head {deeper comparison : Reader Expr} {tokens : List Token}
    (h : tokens.head? ≠ some (.keyword .not)) :
    readPrefixed deeper comparison tokens = comparison tokens := by
  unfold readPrefixed
  split
  · simp at h
  · rfl

theorem outlasts_refuseDepth (other : Reader α) (tokens : List Token) :
    Outlasts (fun _ => other) tokens (refuseDepth tokens) :=
  .tooDeep tokens

theorem outlasts_readPrefixed {deeper deeper' comparison comparison' : Reader Expr}
    (hdeeper : ∀ tokens, Outlasts (fun _ => deeper') tokens (deeper tokens))
    (hcomparison : ∀ tokens, Outlasts (fun _ => comparison') tokens (comparison tokens))
    (tokens : List Token) :
    Outlasts (fun _ => readPrefixed deeper' comparison') tokens
      (readPrefixed deeper comparison tokens) := by
  by_cases h : tokens.head? = some (.keyword .not)
  · obtain ⟨rest, rfl⟩ := List.head?_eq_some_iff.mp h
    exact .cons (fun _ _ => rfl) (.map (hdeeper rest))
  · rw [readPrefixed_of_head h]
    exact .of_head (fun _ more hmore _ => readPrefixed_of_head (hmore ▸ h)) (hcomparison tokens)

theorem outlasts_readNegation {budget larger : Nat} (hle : budget ≤ larger) :
    (∀ tokens, Outlasts (fun _ => readNegation larger) tokens (readNegation budget tokens))
      ∧ ∀ tokens, Outlasts (fun _ => read larger) tokens (read budget tokens) := by
  induction budget generalizing larger with
  | zero =>
    have hread : ∀ tokens, Outlasts (fun _ => read larger) tokens (read 0 tokens) :=
      outlasts_refuseDepth _
    refine ⟨fun tokens => ?_, hread⟩
    rw [funext (readNegation_eq larger), readNegation_eq]
    exact outlasts_readPrefixed (outlasts_refuseDepth _) (outlasts_readComparison hread) tokens
  | succ budget ih =>
    obtain ⟨larger, rfl⟩ : ∃ n, larger = n + 1 := ⟨larger - 1, by omega⟩
    have hnegation := (ih (Nat.le_of_succ_le_succ hle)).1
    have hread : ∀ tokens,
        Outlasts (fun _ => read (larger + 1)) tokens (read (budget + 1) tokens) :=
      outlasts_readDisjunction hnegation
    refine ⟨fun tokens => ?_, hread⟩
    rw [funext (readNegation_eq (larger + 1)), readNegation_eq]
    exact outlasts_readPrefixed hnegation (outlasts_readComparison hread) tokens

theorem outlasts_read {budget larger : Nat} (hle : budget ≤ larger) (tokens : List Token) :
    Outlasts (fun _ => read larger) tokens (read budget tokens) :=
  (outlasts_readNegation hle).2 tokens

end Expr

namespace Stmt

/-! ## Statements -/

theorem readProc_of_head {expr : Reader Expr} {inner : Reader Stmt} {tokens : List Token}
    (h : ∀ name, tokens.head? ≠ some (.name name)) :
    readProc expr inner tokens = .error (.unexpected (.name (.afterWord .proc)) tokens) := by
  unfold readProc
  split
  · next name _ => exact absurd rfl (h name)
  · rfl

section Readers

variable {expr expr' : Reader Expr} {inner inner' : Reader Stmt}
  (hexpr : ∀ tokens, Outlasts (fun _ => expr') tokens (expr tokens))
  (hinner : ∀ tokens, Outlasts (fun _ => inner') tokens (inner tokens))
  (hshorter : ∀ tokens stmt rest, inner tokens = .ok (stmt, rest) → rest.length < tokens.length)

include hinner hshorter in
theorem outlasts_readBlock (rounds tokens : List Token) (hrounds : tokens.length ≤ rounds.length) :
    Outlasts (readBlock inner') tokens (readBlock inner rounds tokens) := by
  fun_induction readBlock inner rounds tokens with
  | case1 => exact .round (fun _ _ _ => rfl) (.done fun _ _ _ _ => rfl)
  | case2 rounds round token rest hopen ih =>
    simp only [List.length_cons, Nat.add_le_add_iff_right] at hrounds
    let next := fun (rounds : List Token) (read : Stmt × List Token) =>
      readBlock inner' rounds read.2 >>= fun after => .ok (read.1 :: after.1, after.2)
    have hstep : ∀ rounds more, more.head? = some token → more.length ≤ rounds.length →
        readBlock inner' rounds more = inner' more >>= next rounds.tail := by
      intro rounds more hmore hrounds
      obtain ⟨tail, rfl⟩ := List.head?_eq_some_iff.mp hmore
      cases rounds with
      | nil => simp at hrounds
      | cons round rounds =>
        rw [readBlock]
        · rfl
        · exact hopen
    refine .of_head hstep (.bind_tail next (hshorter _) (hinner _) fun first after hafter => ?_)
    simp only [List.length_cons] at hafter
    show Outlasts (fun rounds rest => readBlock inner' rounds rest >>= fun after =>
        .ok (first :: after.1, after.2)) after
      (readBlock inner round after >>= fun after => .ok (first :: after.1, after.2))
    exact .map (ih after (by omega))
  | case3 rounds tokens hclose hopen =>
    obtain rfl : tokens = [] := eq_nil_of_stops hrounds hopen
    refine .refused fun rounds more hmore _ => ?_
    obtain rfl : more = [] := by simpa using hmore
    unfold readBlock
    cases rounds <;> rfl

include hexpr hinner in
theorem outlasts_readGuarded (word : Keyword) (tokens : List Token) :
    Outlasts (fun _ => readGuarded expr' inner' word) tokens
      (readGuarded expr inner word tokens) := by
  refine .expect fun rest _ => .bind (hexpr rest) fun condition rest _ => ?_
  exact .expect fun rest _ => .map (hinner rest)

include hexpr hinner in
theorem outlasts_readProc (tokens : List Token) :
    Outlasts (fun _ => readProc expr' inner') tokens (readProc expr inner tokens) := by
  unfold readProc
  split
  · refine .cons (fun _ _ => rfl) (.expect fun rest _ => ?_)
    refine .bind (Expr.outlasts_readList hexpr _ _ rest) fun parameters rest _ => ?_
    exact .map (hinner rest)
  · next hname =>
    refine .refused fun _ more hmore _ => readProc_of_head fun name hhead => ?_
    obtain ⟨rest, htokens⟩ := List.head?_eq_some_iff.mp (hmore ▸ hhead)
    exact hname name rest htokens

include hexpr in
theorem outlasts_readCall (name : String) (tokens : List Token) :
    Outlasts (fun _ => readCall expr' name) tokens (readCall expr name tokens) := by
  refine .bind (Expr.outlasts_readList hexpr _ _ tokens) fun arguments rest _ => ?_
  exact .expect fun rest _ => .done fun _ _ _ _ => rfl

include hexpr in
theorem outlasts_readAssign (tokens : List Token) :
    Outlasts (fun _ => readAssign expr') tokens (readAssign expr tokens) := by
  refine .bind (hexpr tokens) fun target rest _ => .expect fun rest _ => ?_
  refine .bind (hexpr rest) fun value rest _ => ?_
  exact .expect fun rest _ => .done fun _ _ _ _ => rfl

include hexpr hinner hshorter in
theorem outlasts_readForm (hname : ∀ name, expr' [.name name] = .ok (.var name, []))
    (tokens : List Token) :
    Outlasts (fun _ => readForm expr' inner') tokens (readForm expr inner tokens) := by
  unfold readForm
  split
  · refine .cons (fun _ _ => rfl) (.bind (hexpr _) fun value rest _ => ?_)
    exact .expect fun rest _ => .done fun _ _ _ _ => rfl
  · refine .cons (fun _ _ => rfl) (.map ?_)
    exact (outlasts_readBlock hinner hshorter _ _ (Nat.le_refl _)).of_rounds
  · refine .cons (fun _ _ => rfl) (.bind (outlasts_readGuarded hexpr hinner _ _) ?_)
    exact fun ⟨condition, body⟩ rest _ => .done fun _ _ _ _ => rfl
  · refine .cons (fun _ _ => rfl) (.bind (outlasts_readGuarded hexpr hinner _ _) ?_)
    exact fun ⟨condition, body⟩ rest _ => .done fun _ _ _ _ => rfl
  · exact .cons (fun _ _ => rfl) (outlasts_readProc hexpr hinner _)
  · exact .cons (fun _ _ => rfl) (.cons (fun _ _ => rfl) (outlasts_readCall hexpr _ _))
  · next hprint hblock hcond hloop hproc hcall =>
    have hassign := outlasts_readAssign hexpr tokens
    cases tokens with
    | nil =>
      refine .of_head (fun _ more hmore _ => ?_) hassign
      obtain rfl : more = [] := by simpa using hmore
      rfl
    | cons token rest =>
      have hform : token.headsForm = false := by
        cases token with
        | int value | string text | name text => rfl
        | keyword word => cases word <;> simp_all [Token.headsForm]
        | symbol mark => cases mark <;> simp_all [Token.headsForm]
      by_cases hfirst : ∃ name, token = .name name
      · -- Two tokens decide here, and the first is always passed over.
        obtain ⟨name, rfl⟩ := hfirst
        have hpasses : readAssign expr' [.name name]
            = .error (.unexpected (.symbol .equals .inAssignment) []) := by
          rw [readAssign, hname name]
          rfl
        refine .of_second hpasses (fun _ more hmore => readForm_eq_readAssign ?_ ?_) hassign
        · intro first hfirst
          obtain rfl : Token.name name = first := by simpa using hfirst
          exact hform
        · intro other after heq
          obtain ⟨-, rfl⟩ := List.cons.inj heq
          obtain ⟨after, rfl⟩ := List.head?_eq_some_iff.mp hmore.symm
          exact hcall name after rfl
      · refine .of_head (fun _ more hmore _ => readForm_eq_readAssign ?_ ?_) hassign
        · intro first hhead
          obtain rfl : token = first := by simpa [hmore] using hhead
          exact hform
        · intro name after hmarked
          subst hmarked
          exact hfirst ⟨name, by simpa using hmore.symm⟩

end Readers

/-! ## Nesting -/

theorem outlasts_read {budget larger : Nat} (hlt : budget < larger) (tokens : List Token) :
    Outlasts (fun _ => read larger) tokens (read budget tokens) := by
  induction budget generalizing larger tokens with
  | zero => exact Expr.outlasts_refuseDepth _ tokens
  | succ budget ih =>
    obtain ⟨larger, rfl⟩ : ∃ n, larger = n + 1 := ⟨larger - 1, by omega⟩
    refine outlasts_readForm (Expr.outlasts_read (by omega)) (ih (by omega)) ?_ ?_ tokens
    · intro tokens stmt rest hread
      have hreads := reads_read budget tokens
      rw [hread] at hreads
      obtain ⟨passed, rfl, hderives⟩ := hreads.suffix
      have hpos := List.length_pos_iff.mpr hderives.ne_nil
      rw [List.length_append]
      omega
    · intro name
      have hvar : Expr.Derives .exp 1 [.name name] (.var name) := .of_atom (.var name)
      exact Expr.accepts_read larger [] (hvar.of_depth_le (by omega)) .nil

/-- Where a reader refuses a token, no statement goes on with that token. -/
theorem not_derives_of_ofTokens {limit depth : Nat} {passed rest more : List Token}
    {expectation : Expectation} {stmt : Stmt}
    (h : ofTokens limit (passed ++ rest) = .error (.unexpected expectation rest))
    (hmore : more.head? = rest.head?) : ¬ Derives depth (passed ++ more) stmt := by
  intro hderives
  have haccepted := accepts_read (max limit depth + 1) []
    (hderives.of_depth_le (show depth ≤ max limit depth + 1 by omega))
  rw [List.append_nil] at haccepted
  have hread := outlasts_read (show limit < max limit depth + 1 by omega) (passed ++ rest)
  unfold ofTokens at h
  generalize read limit (passed ++ rest) = outcome at hread h
  cases hread with
  | tooDeep rest => simp [bind, Except.bind] at h
  | @answer passed' rest' answer htokens hother =>
    have hrest : rest' = rest := by
      cases answer with
      | value x => cases rest' <;> simp_all [Answer.leaving, bind, Except.bind]
      | refusal expectation => simp_all [Answer.leaving, bind, Except.bind]
    subst hrest
    obtain rfl := List.append_cancel_right htokens
    have hread := hother _ more hmore (Nat.le_refl _)
    rw [haccepted] at hread
    cases answer with
    | value x =>
      obtain rfl : [] = more := (Prod.mk.inj (Except.ok.inj hread)).2
      obtain rfl : rest' = [] := by simpa using hmore.symm
      simp [Answer.leaving, bind, Except.bind] at h
    | refusal expectation => simp [Answer.leaving] at hread

end Stmt

end ScriptFacts
