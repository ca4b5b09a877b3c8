import Mathlib.Data.List.TakeWhile
import ScriptFacts.Proofs.Token.Places
import ScriptFacts.Proofs.Token.Splits
import ScriptFacts.Token.Cursor

/-!
# The cursor keeps its place

A cursor is in step with a text when its index is the number of characters behind it and its
counters tell the place behind them. Passing a character keeps it in step, so every loop does, and
every loop passes what cutting the text passes at once. A token is placed before any of it is read,
and hence where its first character stands.

* `Cursor.At`: the cursor is in step, at some point of its text.
* `Cursor.At.pass`: one character is passed.
* `Cursor.At.passWhile`, `Cursor.At.passGap`, `Cursor.At.exists_passString`: the loops.
* `Cursor.At.reads_token`: a token is read where it begins.
* `Cursor.readText_eq`: the cursor reads the stream of the text.
-/
namespace ScriptFacts

open Text

namespace Cursor

/-- The cursor is in step with its text, `before` being behind it and `rest` still to come. -/
structure At (cursor : Cursor) (before rest : List Char) : Prop where
  input_eq : cursor.input = (before ++ rest).toArray
  index_eq : cursor.index = before.length
  location_eq : cursor.location = .behind before

theorem at_start (text : List Char) : (start text).At [] text :=
  ⟨rfl, rfl, rfl⟩

/-- Nothing can be read at a quote that no other follows. -/
theorem readToken_unclosed {rest : List Char} (h : '"' ∉ rest) :
    readToken '"' rest = .error .unclosedString := by
  have hall : rest.takeWhile (· != '"') = rest := by
    rw [List.takeWhile_eq_self_iff]
    intro c hc
    rw [bne_iff_ne]
    rintro rfl
    exact h hc
  unfold readToken
  simp [hall]

/-! ## Rounds of the loops -/

theorem passWhile_eq (p : Char → Bool) (cursor : Cursor) :
    cursor.passWhile p = match cursor.advance with
      | none => ([], cursor)
      | some (c, next) =>
        if p c then (c :: (next.passWhile p).1, (next.passWhile p).2) else ([], cursor) := by
  rw [passWhile]
  split <;> simp_all

theorem passGap_eq (cursor : Cursor) :
    cursor.passGap = match cursor.advance with
      | none => cursor
      | some (c, next) =>
        if isBlank c then next.passGap
        else if c = '#' then (next.passWhile (· != '\n')).2.passGap
        else cursor := by
  rw [passGap]
  split <;> simp_all

theorem passString_eq (cursor : Cursor) :
    cursor.passString = match cursor.advance with
      | none => none
      | some (c, next) =>
        if c = '"' then some ([], next)
        else next.passString.map fun read => (c :: read.1, read.2) := by
  rw [passString]
  split <;> simp_all

theorem stream_eq (cursor : Cursor) :
    cursor.stream =
      if cursor.passGap.peek = none then .ok ⟨[], cursor.passGap.location⟩
      else match cursor.passGap.token with
        | .error error => .error error
        | .ok (placed, next) =>
          next.stream.map fun more => { more with placed := placed :: more.placed } := by
  rw [stream]
  split
  · rfl
  · split <;> simp_all

namespace At

variable {cursor : Cursor} {before rest : List Char} {c : Char}

/-! ## Single characters -/

theorem peek_eq (h : cursor.At before rest) : cursor.peek = rest.head? := by
  rw [peek, h.input_eq, h.index_eq, List.getElem?_toArray,
    List.getElem?_append_right (Nat.le_refl _), Nat.sub_self, List.head?_eq_getElem?]

/-- Behind one more character, the counters tell the place behind it. -/
theorem pass (h : cursor.At before (c :: rest)) : (cursor.pass c).At (before ++ [c]) rest := by
  have hinput : cursor.input = (before ++ [c] ++ rest).toArray := by
    rw [h.input_eq, ← List.append_cons]
  have hindex : cursor.index + 1 = (before ++ [c]).length := by
    rw [h.index_eq, List.length_append, List.length_singleton]
  have hline : cursor.line = (Location.behind before).line := congrArg Location.line h.location_eq
  have hcolumn : cursor.column = (Location.behind before).column :=
    congrArg Location.column h.location_eq
  by_cases hc : c = '\n'
  · refine ⟨?_, ?_, ?_⟩
    · simpa [Cursor.pass, hc] using hinput
    · simpa [Cursor.pass, hc] using hindex
    · simp [Cursor.pass, hc, location, Location.behind_snoc, Location.next, hline]
  · refine ⟨?_, ?_, ?_⟩
    · simpa [Cursor.pass, hc] using hinput
    · simpa [Cursor.pass, hc] using hindex
    · simp [Cursor.pass, hc, location, Location.behind_snoc, Location.next, hline, hcolumn]

theorem advance_nil (h : cursor.At before []) : cursor.advance = none := by
  rw [advance, h.peek_eq]
  rfl

theorem advance_cons (h : cursor.At before (c :: rest)) :
    cursor.advance = some (c, cursor.pass c) := by
  rw [advance, h.peek_eq]
  rfl

/-! ## Loops -/

/-- A loop over a class of characters passes all of them and stops. -/
theorem passWhile (p : Char → Bool) (h : cursor.At before rest) :
    (cursor.passWhile p).1 = rest.takeWhile p
      ∧ (cursor.passWhile p).2.At (before ++ rest.takeWhile p) (rest.dropWhile p) := by
  induction rest generalizing cursor before with
  | nil =>
    rw [passWhile_eq, h.advance_nil]
    exact ⟨rfl, by simpa using h⟩
  | cons c rest ih =>
    rw [passWhile_eq, h.advance_cons]
    dsimp only
    by_cases hc : p c = true
    · obtain ⟨hpassed, hlast⟩ := ih h.pass
      rw [if_pos hc, List.takeWhile_cons_of_pos hc, List.dropWhile_cons_of_pos hc,
        List.append_cons, hpassed]
      exact ⟨rfl, hlast⟩
    · rw [if_neg hc, List.takeWhile_cons_of_neg hc, List.dropWhile_cons_of_neg hc,
        List.append_nil]
      exact ⟨rfl, h⟩

/-- The line feed that ends a comment is not passed with it. -/
theorem takeWhile_line {line more : List Char} (hline : '\n' ∉ line)
    (hmore : ∀ c ∈ more.head?, c = '\n') :
    (line ++ more).takeWhile (· != '\n') = line
      ∧ (line ++ more).dropWhile (· != '\n') = more := by
  have hpos : ∀ c ∈ line, (c != '\n') = true := by
    intro c hc
    rw [bne_iff_ne]
    rintro rfl
    exact hline hc
  have hneg : ∀ c ∈ more.head?, (c != '\n') = false := by
    intro c hc
    simp [hmore c hc]
  refine ⟨takeWhile_append_of_head? hpos hneg, ?_⟩
  rw [List.dropWhile_append_of_pos hpos]
  cases more with
  | nil => rfl
  | cons c more =>
    rw [List.dropWhile_cons_of_neg]
    simp [hneg c rfl]

/-- The loop over blanks and comments passes a gap as a whole. -/
theorem passGap {gap : List Char} (hgap : IsGap gap rest) (hstops : Stops rest)
    (h : cursor.At before (gap ++ rest)) : cursor.passGap.At (before ++ gap) rest := by
  induction hgap generalizing cursor before with
  | @nothing rest =>
    rw [List.append_nil, passGap_eq]
    cases rest with
    | nil =>
      rw [h.advance_nil]
      exact h
    | cons c rest =>
      obtain ⟨hblank, hcomment⟩ := hstops c rfl
      rw [h.advance_cons]
      simpa [hblank, hcomment] using h
  | @blank c gap rest hblank _ ih =>
    rw [List.append_cons, passGap_eq, h.advance_cons]
    simp only [hblank, if_true]
    exact ih hstops h.pass
  | @comment line gap rest hline hend _ ih =>
    have hopen : cursor.At before ('#' :: (line ++ (gap ++ rest))) := by simpa using h
    obtain ⟨htake, hdrop⟩ := takeWhile_line hline hend
    obtain ⟨-, hclosed⟩ := hopen.pass.passWhile (· != '\n')
    rw [htake, hdrop] at hclosed
    have hlast := ih hstops hclosed
    rw [passGap_eq, hopen.advance_cons]
    have hblank : isBlank '#' = false := by decide
    simpa [hblank] using hlast

/-- The loop in a string stops behind the next quote. -/
theorem exists_passString {inner more : List Char} (hinner : '"' ∉ inner)
    (h : cursor.At before (inner ++ '"' :: more)) :
    ∃ last, cursor.passString = some (inner, last) ∧ last.At (before ++ (inner ++ ['"'])) more := by
  induction inner generalizing cursor before with
  | nil =>
    refine ⟨cursor.pass '"', ?_, h.pass⟩
    rw [passString_eq, h.advance_cons]
    rfl
  | cons c inner ih =>
    obtain ⟨hc, hinner⟩ : '"' ≠ c ∧ '"' ∉ inner := by simpa using hinner
    obtain ⟨last, hread, hlast⟩ := ih hinner h.pass
    refine ⟨last, ?_, by simpa using hlast⟩
    rw [passString_eq, h.advance_cons]
    simp [Ne.symm hc, hread]

/-- Without another quote it comes to the end of the text. -/
theorem passString_eq_none (hrest : '"' ∉ rest) (h : cursor.At before rest) :
    cursor.passString = none := by
  induction rest generalizing cursor before with
  | nil => rw [passString_eq, h.advance_nil]
  | cons c rest ih =>
    obtain ⟨hc, hrest⟩ : '"' ≠ c ∧ '"' ∉ rest := by simpa using hrest
    rw [passString_eq, h.advance_cons]
    simp [Ne.symm hc, ih hrest h.pass]

/-! ## Tokens -/

/-- Behind as many characters as a loop has passed. -/
theorem passWhile_length (p : Char → Bool) (h : cursor.At (before ++ [c]) rest) :
    (cursor.passWhile p).2.At (before ++ c :: rest.take (rest.takeWhile p).length)
      (rest.drop (rest.takeWhile p).length) := by
  have hsplit : rest.takeWhile p ++ rest.dropWhile p = rest := List.takeWhile_append_dropWhile
  have htake : rest.take (rest.takeWhile p).length = rest.takeWhile p := by
    calc
      _ = (rest.takeWhile p ++ rest.dropWhile p).take (rest.takeWhile p).length := by rw [hsplit]
      _ = rest.takeWhile p := List.take_left
  have hdrop : rest.drop (rest.takeWhile p).length = rest.dropWhile p := by
    calc
      _ = (rest.takeWhile p ++ rest.dropWhile p).drop (rest.takeWhile p).length := by rw [hsplit]
      _ = rest.dropWhile p := List.drop_left
  rw [htake, hdrop, List.append_cons]
  exact (h.passWhile p).2

end At

/-- What the cursor makes of the next character: the token that can be read there, placed there, or
the fault. -/
inductive Reads (before : List Char) (c : Char) (rest : List Char) :
    Except Fault (Token × Nat) → Except SyntaxError (Placed × Cursor) → Prop
  | token {token : Token} {n : Nat} {last : Cursor} :
      last.At (before ++ c :: rest.take n) (rest.drop n) →
        Reads before c rest (.ok (token, n)) (.ok (⟨token, .behind before⟩, last))
  | fault (fault : Fault) :
      Reads before c rest (.error fault) (.error (TokenStream.faultAt (.behind before) fault))

namespace At

variable {cursor : Cursor} {before rest : List Char} {c : Char}

/-- A string is read up to the quote that closes it, if there is one. -/
theorem reads_string (h : cursor.At before ('"' :: rest)) :
    Reads before '"' rest (readToken '"' rest) cursor.token := by
  unfold Cursor.token
  rw [h.advance_cons, h.location_eq]
  by_cases hclosed : '"' ∈ rest
  · obtain ⟨inner, more, rfl, hinner⟩ := List.eq_append_cons_of_mem hclosed
    obtain ⟨last, hread, hlast⟩ := h.pass.exists_passString hinner
    rw [readToken_quoted hinner]
    simp only [if_true, hread]
    have hlength : inner.length + 1 = (inner ++ ['"']).length := by
      rw [List.length_append, List.length_singleton]
    have hrest : inner ++ '"' :: more = (inner ++ ['"']) ++ more := List.append_cons ..
    refine .token ?_
    rw [hlength, hrest, List.take_left, List.drop_left, List.append_cons before]
    exact hlast
  · rw [readToken_unclosed hclosed]
    simp only [if_true, h.pass.passString_eq_none hclosed]
    exact .fault .unclosedString

/-- The cursor reads what can be read at the next character. -/
theorem reads_token (h : cursor.At before (c :: rest)) :
    Reads before c rest (readToken c rest) cursor.token := by
  by_cases hquote : c = '"'
  · subst hquote
    exact h.reads_string
  unfold readToken Cursor.token
  rw [h.advance_cons, h.location_eq]
  dsimp only
  rw [if_neg hquote, if_neg hquote]
  by_cases hdigit : c.isDigit = true
  · rw [if_pos hdigit, if_pos hdigit, (h.pass.passWhile _).1]
    exact .token (h.pass.passWhile_length _)
  rw [if_neg hdigit, if_neg hdigit]
  by_cases hstart : startsWord c = true
  · rw [if_pos hstart, if_pos hstart, (h.pass.passWhile _).1]
    exact .token (h.pass.passWhile_length _)
  rw [if_neg hstart, if_neg hstart, h.pass.peek_eq]
  by_cases hequals : c = '=' ∧ rest.head? = some '='
  · rw [if_pos hequals, if_pos hequals]
    obtain ⟨more, rfl⟩ := List.head?_eq_some_iff.mp hequals.2
    refine .token ?_
    rw [List.append_cons]
    exact h.pass.pass
  rw [if_neg hequals, if_neg hequals]
  cases Symbol.ofChar? c with
  | some mark => exact .token h.pass
  | none => exact .fault (.strangeCharacter c)

/-! ## Whole texts -/

/-- Passing what lies before the first lexeme. -/
theorem passGap_splitGap (h : cursor.At before rest) :
    cursor.passGap.At (before ++ (splitGap false rest).1) (splitGap false rest).2 := by
  refine passGap (isGap_splitGap rest) (stops_splitGap false rest) ?_
  rwa [splitGap_append]

/-- The cursor reads the lexemes of what is still to come, each where it begins, and stops where
they end. -/
theorem stream_eq_ofCut (h : cursor.At before rest) :
    cursor.stream = TokenStream.ofCut (.behind before) (cut rest).1 (cut rest).2 := by
  have hbegins := h.passGap_splitGap
  fun_induction cut rest generalizing cursor before with
  | case1 rest gap hsplit =>
    simp only [hsplit] at hbegins
    have hend : cursor.passGap.peek = none := hbegins.peek_eq
    rw [Cursor.stream_eq, if_pos hend, hbegins.location_eq, Location.behind_append]
    rfl
  | case2 rest gap c more hsplit fault hread =>
    simp only [hsplit] at hbegins
    have htoken := hbegins.reads_token
    rw [hread] at htoken
    have hnext : cursor.passGap.peek ≠ none := by simp [hbegins.peek_eq]
    rw [Cursor.stream_eq, if_neg hnext]
    generalize cursor.passGap.token = result at htoken
    cases htoken with
    | fault =>
      rw [Location.behind_append]
      rfl
  | case3 rest gap c more hsplit token n hread lexemes ending hcut ih =>
    simp only [hsplit] at hbegins
    have htoken := hbegins.reads_token
    rw [hread] at htoken
    have hnext : cursor.passGap.peek ≠ none := by simp [hbegins.peek_eq]
    rw [Cursor.stream_eq, if_neg hnext]
    generalize cursor.passGap.token = result at htoken
    cases htoken with
    | token hlast =>
      -- The cursor stands behind the lexeme now, and reads the others from there.
      have hmore := ih hlast hlast.passGap_splitGap
      rw [hcut] at hmore
      have hcons := TokenStream.ofCut_append (.behind before) [⟨gap, c :: more.take n, token⟩]
        lexemes ending
      have hhere : (Location.behind before).after
          (Lexeme.flatten [⟨gap, c :: more.take n, token⟩])
          = Location.behind (before ++ gap ++ c :: more.take n) := by
        simp [Lexeme.flatten, Location.behind_append]
      rw [hhere, List.singleton_append] at hcons
      simp only
      rw [hmore, hcons, Location.behind_append before gap]
      rfl

end At

/-- Reading character by character gives the stream of the text. -/
theorem readText_eq (text : List Char) : readText text = TokenStream.ofText text := by
  rw [readText, (at_start text).stream_eq_ofCut, TokenStream.ofText_eq_ofCut]
  rfl

end Cursor

end ScriptFacts
