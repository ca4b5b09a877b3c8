import ScriptFacts.Token.Grammar

/-!
# What is read spells what was read

A token is read from a text that spells it, and from the longest such text: whatever else is spelled
at the beginning of a text is no longer than what is read there. Where nothing can be read, nothing
is spelled.

* `readToken_spells`, `Spells.exists_readToken`: what is read is spelled, and whatever is spelled is
  read at least as far.
* `Spells.unique`: a text spells one token.
* `readToken_longest`, `Spells.readToken_of_longest`: the longest spelling is what is read.
* `Spells.longest_iff`: one more character tells whether a spelling is the longest.
* `readToken_eq_error`: why nothing can be read.
* `toList_repr_ofDigitChars`: the numeral of a number is its digits without the zeros in front.
-/
namespace ScriptFacts

open Text

/-! ## Words -/

/-- The characters of a name or a keyword. -/
def isWord : List Char → Bool
  | [] => false
  | c :: more => startsWord c && more.all continuesWord

theorem exists_of_isWord {text : List Char} (h : isWord text = true) :
    ∃ c letters, text = c :: letters ∧ startsWord c = true ∧
      ∀ d ∈ letters, continuesWord d = true := by
  cases text with
  | nil => simp [isWord] at h
  | cons c letters => exact ⟨c, letters, rfl, by simpa [isWord] using h⟩

theorem Keyword.isWord_spelling (word : Keyword) : isWord word.spelling.toList = true := by
  cases word <;> decide

theorem Keyword.ofSpelling?_eq_none {text : List Char}
    (h : ∀ word : Keyword, word.spelling.toList ≠ text) :
    Keyword.ofSpelling? (String.ofList text) = none := by
  rw [Option.eq_none_iff_forall_ne_some]
  intro word hword
  refine h word ?_
  rw [Keyword.spelling_of_ofSpelling? hword, String.toList_ofList]

/-! ## Reading by the first character -/

theorem toNat_of_isUpper {c : Char} (h : c.isUpper = true) : 65 ≤ c.toNat ∧ c.toNat ≤ 90 := by
  obtain ⟨hlow, hhigh⟩ := of_decide_eq_true h
  exact ⟨UInt32.le_iff_toNat_le.mp hlow, UInt32.le_iff_toNat_le.mp hhigh⟩

/-- Letters and the underscore lie between the at sign and the delete character. -/
theorem visible_of_startsWord {c : Char} (h : startsWord c = true) :
    0x40 < c.toNat ∧ c.toNat < 0x7F := by
  have hcases : (c.isUpper || c.isLower || c == '_') = true := h
  simp only [Bool.or_eq_true, beq_iff_eq] at hcases
  rcases hcases with (hupper | hlower) | rfl
  · have hrange := toNat_of_isUpper hupper
    omega
  · obtain ⟨hlow, hhigh⟩ := Bool.and_eq_true_iff.mp hlower
    have hlow' : 97 ≤ c.toNat := UInt32.le_iff_toNat_le.mp (of_decide_eq_true hlow)
    have hhigh' : c.toNat ≤ 122 := UInt32.le_iff_toNat_le.mp (of_decide_eq_true hhigh)
    omega
  · decide

/-- What lies between the space and the delete character in ASCII is visible. -/
theorem isBlank_of_visible {c : Char} (h : 0x20 < c.toNat) (h' : c.toNat < 0x7F) :
    isBlank c = false := by
  simp [isBlank, inRanges, blankRanges]
  omega

/-- No gap begins with a digit, -/
theorem not_gap_of_isDigit {c : Char} (h : c.isDigit = true) : isBlank c = false ∧ c ≠ '#' := by
  have hrange : 48 ≤ c.toNat ∧ c.toNat ≤ 57 := Char.isDigit_iff_toNat.mp h
  refine ⟨isBlank_of_visible (by omega) (by omega), ?_⟩
  intro hcomment
  subst hcomment
  simp at h

/-- and none with a letter. -/
theorem not_gap_of_startsWord {c : Char} (h : startsWord c = true) :
    isBlank c = false ∧ c ≠ '#' := by
  have hrange := visible_of_startsWord h
  refine ⟨isBlank_of_visible (by omega) hrange.2, ?_⟩
  intro hcomment
  subst hcomment
  simp at hrange

theorem readToken_digit {c : Char} (h : c.isDigit = true) (text : List Char) :
    readToken c text = .ok (.int (Nat.ofDigitChars 10 (c :: text.takeWhile Char.isDigit) 0),
      (text.takeWhile Char.isDigit).length) := by
  have hquote : c ≠ '"' := by
    intro hquote
    subst hquote
    simp at h
  unfold readToken
  rw [if_neg hquote, if_pos h]

/-- No quote and no digit begins a word. -/
theorem readToken_word {c : Char} (h : startsWord c = true) (text : List Char) :
    readToken c text = .ok (Token.ofWord (String.ofList (c :: text.takeWhile continuesWord)),
      (text.takeWhile continuesWord).length) := by
  have hrange := visible_of_startsWord h
  have hquote : c ≠ '"' := by
    intro hquote
    subst hquote
    simp at hrange
  have hdigit : ¬ c.isDigit = true := by
    intro hdigit
    have hupper : c.toNat ≤ 57 := (Char.isDigit_iff_toNat.mp hdigit).2
    omega
  unfold readToken
  rw [if_neg hquote, if_neg hdigit, if_pos h]

theorem quote_notMem_takeWhile (text : List Char) : '"' ∉ text.takeWhile (· != '"') := by
  intro hquote
  have hne := List.all_eq_true.mp List.all_takeWhile _ hquote
  simp at hne

theorem readToken_quoted {inner : List Char} (h : '"' ∉ inner) (rest : List Char) :
    readToken '"' (inner ++ '"' :: rest)
      = .ok (.string (String.ofList inner), inner.length + 1) := by
  have htake : (inner ++ '"' :: rest).takeWhile (· != '"') = inner := by
    rw [List.takeWhile_append_of_pos]
    · simp
    · intro c hc
      rw [bne_iff_ne]
      intro hquote
      rw [hquote] at hc
      exact h hc
  unfold readToken
  rw [if_pos rfl, htake]
  simp

/-! ## What is read is spelled -/

theorem Symbol.toList_spelling_of_ofChar? {c : Char} {mark : Symbol}
    (h : Symbol.ofChar? c = some mark) : mark.spelling.toList = [c] := by
  unfold Symbol.ofChar? at h
  split at h <;> cases h <;> rfl

/-- A string that ends within the text ends with a quote. -/
theorem exists_quoted {text : List Char}
    (h : (text.takeWhile (· != '"')).length < text.length) :
    ∃ more, text = text.takeWhile (· != '"') ++ '"' :: more := by
  cases hdrop : text.dropWhile (· != '"') with
  | nil =>
    have hall := List.takeWhile_append_dropWhile (p := (· != '"')) (l := text)
    rw [hdrop, List.append_nil] at hall
    rw [hall] at h
    exact absurd h (Nat.lt_irrefl _)
  | cons d more =>
    obtain rfl : d = '"' := by
      have hhead := List.head?_dropWhile_not (· != '"') text
      rw [hdrop] at hhead
      simpa using hhead
    exact ⟨more, by rw [← hdrop, List.takeWhile_append_dropWhile]⟩

theorem Spells.ofWord {c : Char} {letters : List Char} (hstart : startsWord c = true)
    (hletters : ∀ d ∈ letters, continuesWord d = true) :
    Spells (c :: letters) (Token.ofWord (String.ofList (c :: letters))) := by
  unfold Token.ofWord
  split
  · next word hword =>
    have hspelling := congrArg String.toList (Keyword.spelling_of_ofSpelling? hword)
    rw [String.toList_ofList] at hspelling
    rw [← hspelling]
    exact .reserved word
  · next hnone =>
    refine .name hstart hletters fun word hword => ?_
    rw [← hword, String.ofList_toList, Keyword.ofSpelling?_spelling] at hnone
    simp at hnone

/-- What is read as a token is a spelling of it at the beginning of the text. -/
theorem readToken_spells {c : Char} {text : List Char} {token : Token} {n : Nat}
    (h : readToken c text = .ok (token, n)) :
    ∃ letters rest, text = letters ++ rest ∧ n = letters.length ∧ Spells (c :: letters) token := by
  unfold readToken at h
  dsimp only at h
  split at h
  · next hc =>
    split at h
    · next hlength =>
      obtain ⟨rfl, rfl⟩ := Prod.mk.inj (Except.ok.inj h)
      obtain ⟨more, hmore⟩ := exists_quoted hlength
      refine ⟨text.takeWhile (· != '"') ++ ['"'], more, ?_, ?_, ?_⟩
      · rw [List.append_assoc, List.singleton_append, ← hmore]
      · rw [List.length_append, List.length_singleton]
      · rw [hc]
        exact .quoted (quote_notMem_takeWhile text)
    · simp at h
  split at h
  · next hdigit =>
    obtain ⟨rfl, rfl⟩ := Prod.mk.inj (Except.ok.inj h)
    refine ⟨_, _, List.takeWhile_append_dropWhile.symm, rfl, ?_⟩
    refine .digits (List.cons_ne_nil _ _) fun d hd => ?_
    rcases List.mem_cons.mp hd with rfl | hd
    · exact hdigit
    · exact List.all_eq_true.mp List.all_takeWhile d hd
  split at h
  · next hstart =>
    obtain ⟨rfl, rfl⟩ := Prod.mk.inj (Except.ok.inj h)
    exact ⟨_, _, List.takeWhile_append_dropWhile.symm, rfl,
      .ofWord hstart fun d hd => List.all_eq_true.mp List.all_takeWhile d hd⟩
  split at h
  · next hequals =>
    obtain ⟨rfl, hhead⟩ := hequals
    obtain ⟨rfl, rfl⟩ := Prod.mk.inj (Except.ok.inj h)
    obtain ⟨more, rfl⟩ := List.head?_eq_some_iff.mp hhead
    exact ⟨['='], more, rfl, rfl, .mark .doubleEquals⟩
  split at h
  · next mark hmark =>
    obtain ⟨rfl, rfl⟩ := Prod.mk.inj (Except.ok.inj h)
    refine ⟨[], text, rfl, rfl, ?_⟩
    rw [← Symbol.toList_spelling_of_ofChar? hmark]
    exact .mark mark
  · simp at h

/-! ## What is spelled is read -/

/-- Where `token` is spelled by `c` and `more`, something is read that goes at least as far, and if
it goes no further, it is that token. -/
def ReadsPast (token : Token) (c : Char) (more rest : List Char) : Prop :=
  ∃ found n, readToken c (more ++ rest) = .ok (found, n) ∧ more.length ≤ n ∧
    (n = more.length → found = token)

/-- What is read as far as a class of characters goes. -/
theorem readsPast_run {p : Char → Bool} {c : Char} (f : List Char → Token)
    (hread : ∀ text, readToken c text = .ok (f (text.takeWhile p), (text.takeWhile p).length))
    {more : List Char} (hmore : ∀ d ∈ more, p d = true) (rest : List Char) :
    ReadsPast (f more) c more rest := by
  have htake : (more ++ rest).takeWhile p = more ++ rest.takeWhile p :=
    List.takeWhile_append_of_pos hmore
  refine ⟨_, _, hread _, ?_, fun hn => ?_⟩
  · rw [htake, List.length_append]
    exact Nat.le_add_right _ _
  · rw [htake, List.length_append] at hn
    have hnone : rest.takeWhile p = [] := List.length_eq_zero_iff.mp (by omega)
    rw [htake, hnone, List.append_nil]

theorem readsPast_word {c : Char} {letters : List Char} (hstart : startsWord c = true)
    (hletters : ∀ d ∈ letters, continuesWord d = true) (rest : List Char) :
    ReadsPast (Token.ofWord (String.ofList (c :: letters))) c letters rest :=
  readsPast_run (fun letters => .ofWord (String.ofList (c :: letters))) (readToken_word hstart)
    hletters rest

/-- Every spelling of a token is read, unless something longer is. -/
theorem Spells.exists_readToken {text : List Char} {token : Token} (h : Spells text token)
    (rest : List Char) : ∃ c more, text = c :: more ∧ ReadsPast token c more rest := by
  cases h with
  | @digits digits hne hall =>
    obtain ⟨c, more, rfl⟩ := List.exists_cons_of_ne_nil hne
    obtain ⟨hc, hmore⟩ := List.forall_mem_cons.mp hall
    exact ⟨c, more, rfl, readsPast_run (fun more => .int (Nat.ofDigitChars 10 (c :: more) 0))
      (readToken_digit hc) hmore rest⟩
  | @quoted inner hquote =>
    refine ⟨'"', inner ++ ['"'], rfl, _, inner.length + 1, ?_, ?_, fun _ => rfl⟩
    · rw [List.append_assoc, List.singleton_append]
      exact readToken_quoted hquote rest
    · rw [List.length_append]
      exact Nat.le_refl _
  | reserved word =>
    obtain ⟨c, letters, hspelling, hstart, hletters⟩ := exists_of_isWord word.isWord_spelling
    refine ⟨c, letters, hspelling, ?_⟩
    have hword : Token.ofWord (String.ofList (c :: letters)) = .keyword word := by
      rw [← hspelling, String.ofList_toList, Token.ofWord_keyword]
    rw [← hword]
    exact readsPast_word hstart hletters rest
  | @name c letters hstart hletters hnone =>
    refine ⟨c, letters, rfl, ?_⟩
    have hword : Token.ofWord (String.ofList (c :: letters))
        = .name (String.ofList (c :: letters)) :=
      Token.ofWord_eq_name_iff.mpr ⟨rfl, Keyword.ofSpelling?_eq_none hnone⟩
    rw [← hword]
    exact readsPast_word hstart hletters rest
  | mark mark =>
    cases mark with
    | equals =>
      refine ⟨'=', [], rfl, ?_⟩
      by_cases hhead : rest.head? = some '='
      · obtain ⟨more, rfl⟩ := List.head?_eq_some_iff.mp hhead
        exact ⟨.symbol .doubleEquals, 1, rfl, Nat.zero_le _, by decide⟩
      · refine ⟨.symbol .equals, 0, ?_, Nat.zero_le _, fun _ => rfl⟩
        simp [readToken, startsWord, hhead, Symbol.ofChar?]
    | _ => exact ⟨_, _, rfl, _, _, rfl, Nat.le_refl _, fun _ => rfl⟩

/-- A spelling with which the text begins is read there, unless something longer is. -/
theorem Spells.readToken_of_prefix {c : Char} {text more : List Char} {token : Token}
    (h : Spells text token) (hbegins : text <+: c :: more) :
    ∃ letters found n, text = c :: letters ∧ readToken c more = .ok (found, n) ∧
      letters.length ≤ n ∧ (n = letters.length → found = token) := by
  obtain ⟨rest, hrest⟩ := hbegins
  obtain ⟨first, letters, rfl, found, n, hread, hle, hfound⟩ := h.exists_readToken rest
  obtain ⟨rfl, rfl⟩ := List.cons.inj hrest
  exact ⟨letters, found, n, rfl, hread, hle, hfound⟩

/-- A text spells one token. -/
theorem Spells.unique {text : List Char} {token other : Token} (h : Spells text token)
    (hother : Spells text other) : token = other := by
  obtain ⟨c, letters, rfl, found, n, hread, hle, hfound⟩ := h.exists_readToken []
  obtain ⟨_, found', n', heq, hread', -, hfound'⟩ :=
    hother.readToken_of_prefix (List.prefix_refl _)
  obtain ⟨-, rfl⟩ := List.cons.inj heq
  rw [List.append_nil] at hread
  obtain ⟨rfl, rfl⟩ := Prod.mk.inj (Except.ok.inj (hread.symm.trans hread'))
  obtain ⟨read, rest, hletters, hn, -⟩ := readToken_spells hread
  have hlength := congrArg List.length hletters
  rw [List.length_append] at hlength
  rw [← hfound (by omega), ← hfound' (by omega)]

/-- What is read is the longest spelling. -/
theorem readToken_longest {c : Char} {letters rest : List Char} {token : Token}
    (h : readToken c (letters ++ rest) = .ok (token, letters.length)) :
    Longest (c :: letters) rest := by
  intro longer other hother hbegins
  obtain ⟨more, found, n, rfl, hread, hle, -⟩ := hother.readToken_of_prefix hbegins
  obtain ⟨-, rfl⟩ := Prod.mk.inj (Except.ok.inj (h.symm.trans hread))
  exact Nat.succ_le_succ hle

/-- The longest spelling is what is read. -/
theorem Spells.readToken_of_longest {c : Char} {letters rest : List Char} {token : Token}
    (h : Spells (c :: letters) token) (hlongest : Longest (c :: letters) rest) :
    readToken c (letters ++ rest) = .ok (token, letters.length) := by
  obtain ⟨_, _, heq, found, n, hread, hle, hfound⟩ := h.exists_readToken rest
  obtain ⟨rfl, rfl⟩ := List.cons.inj heq
  obtain ⟨read, more, htext, rfl, hspells⟩ := readToken_spells hread
  have hshort : (c :: read).length ≤ (c :: letters).length :=
    hlongest _ _ hspells ⟨more, by rw [List.cons_append, List.cons_append, htext]⟩
  have hlength : read.length = letters.length :=
    Nat.le_antisymm (Nat.le_of_succ_le_succ hshort) hle
  rw [hread, hfound hlength, hlength]

/-! ## Where a token ends -/

/-- Whether a text of the token, with this character after it, begins a longer token. -/
def Token.goesOn : Token → Char → Bool
  | int _, c => c.isDigit
  | name _, c | keyword _, c => continuesWord c
  | symbol .equals, c => c == '='
  | symbol _, _ | string _, _ => false

/-- A text of the token ends where `rest` begins. -/
def Token.EndsBefore (token : Token) (rest : List Char) : Prop :=
  ∀ c ∈ rest.head?, token.goesOn c = false

theorem takeWhile_append_of_head? {p : Char → Bool} {text rest : List Char}
    (htext : ∀ c ∈ text, p c = true) (hrest : ∀ c ∈ rest.head?, p c = false) :
    (text ++ rest).takeWhile p = text := by
  rw [List.takeWhile_append_of_pos htext]
  cases rest with
  | nil => rw [List.takeWhile_nil, List.append_nil]
  | cons c rest =>
    have hc : ¬ p c = true := by simp [hrest c rfl]
    rw [List.takeWhile_cons_of_neg hc, List.append_nil]

theorem readToken_word_of_head? {c : Char} {letters rest : List Char} (hstart : startsWord c = true)
    (hletters : ∀ d ∈ letters, continuesWord d = true)
    (hrest : ∀ d ∈ rest.head?, continuesWord d = false) :
    readToken c (letters ++ rest)
      = .ok (Token.ofWord (String.ofList (c :: letters)), letters.length) := by
  rw [readToken_word hstart, takeWhile_append_of_head? hletters hrest]

/-- A spelling is read to its end and no further, whatever comes after the end. -/
theorem Spells.readToken_of_endsBefore {text rest : List Char} {token : Token}
    (h : Spells text token) (hrest : token.EndsBefore rest) :
    ∃ c letters, text = c :: letters ∧
      readToken c (letters ++ rest) = .ok (token, letters.length) := by
  cases h with
  | digits hne hall =>
    obtain ⟨c, digits, rfl⟩ := List.exists_cons_of_ne_nil hne
    obtain ⟨hc, hdigits⟩ := List.forall_mem_cons.mp hall
    refine ⟨c, digits, rfl, ?_⟩
    rw [readToken_digit hc, takeWhile_append_of_head? hdigits hrest]
  | @quoted inner hquote =>
    refine ⟨'"', inner ++ ['"'], rfl, ?_⟩
    rw [List.append_assoc, List.singleton_append, readToken_quoted hquote, List.length_append,
      List.length_singleton]
  | reserved word =>
    obtain ⟨c, letters, hspelling, hstart, hletters⟩ := exists_of_isWord word.isWord_spelling
    refine ⟨c, letters, hspelling, ?_⟩
    rw [readToken_word_of_head? hstart hletters hrest, ← hspelling, String.ofList_toList,
      Token.ofWord_keyword]
  | @name c letters hstart hletters hnone =>
    refine ⟨c, letters, rfl, ?_⟩
    rw [readToken_word_of_head? hstart hletters hrest,
      Token.ofWord_eq_name_iff.mpr ⟨rfl, Keyword.ofSpelling?_eq_none hnone⟩]
  | mark mark =>
    cases mark with
    | equals =>
      -- The one mark that could go on, to another equals sign.
      refine ⟨'=', [], rfl, ?_⟩
      have hhead : rest.head? ≠ some '=' := by
        intro hequals
        exact absurd (hrest '=' hequals) (by decide)
      simp [readToken, startsWord, hhead, Symbol.ofChar?]
    | _ => exact ⟨_, _, rfl, rfl⟩

/-- A token that goes on is part of a longer one. -/
theorem Spells.exists_longer {text : List Char} {token : Token} {c : Char} (h : Spells text token)
    (hc : token.goesOn c = true) : ∃ longer, Spells (text ++ [c]) longer := by
  cases h with
  | digits hne hall =>
    refine ⟨_, .digits (by simp) ?_⟩
    intro d hd
    rcases List.mem_append.mp hd with hd | hd
    · exact hall d hd
    · rwa [List.mem_singleton.mp hd]
  | quoted _ => simp [Token.goesOn] at hc
  | reserved word =>
    obtain ⟨first, letters, hspelling, hstart, hletters⟩ := exists_of_isWord word.isWord_spelling
    rw [hspelling]
    exact ⟨_, .ofWord hstart (by simpa [or_imp, forall_and] using ⟨hletters, hc⟩)⟩
  | name hstart hletters _ =>
    exact ⟨_, .ofWord hstart (by simpa [or_imp, forall_and] using ⟨hletters, hc⟩)⟩
  | mark mark =>
    cases mark with
    | equals =>
      obtain rfl : c = '=' := by simpa [Token.goesOn] using hc
      exact ⟨_, .mark .doubleEquals⟩
    | _ => simp [Token.goesOn] at hc

/-- One more character tells whether a spelling is the longest. -/
theorem Spells.longest_iff {text rest : List Char} {token : Token} (h : Spells text token) :
    Longest text rest ↔ token.EndsBefore rest := by
  constructor
  · intro hlongest c hc
    rw [Bool.eq_false_iff]
    intro hgoesOn
    obtain ⟨longer, hlonger⟩ := h.exists_longer hgoesOn
    obtain ⟨more, rfl⟩ : ∃ more, rest = c :: more := by
      cases rest with
      | nil => simp at hc
      | cons d more => exact ⟨more, by simpa using hc⟩
    have hlength := hlongest _ _ hlonger ⟨more, by simp⟩
    rw [List.length_append, List.length_singleton] at hlength
    omega
  · intro hrest
    obtain ⟨c, letters, rfl, hread⟩ := h.readToken_of_endsBefore hrest
    exact readToken_longest hread

/-! ## Where a gap begins -/

/-- No token goes on here: the text is over, or a gap begins. -/
def Apart (rest : List Char) : Prop :=
  ∀ c ∈ rest.head?, isBlank c = true ∨ c = '#'

/-- No blank is part of a word. -/
theorem continuesWord_of_isBlank {c : Char} (h : isBlank c = true) : continuesWord c = false := by
  have hall : (blankRanges.all fun range =>
      (List.range' range.1 (range.2 + 1 - range.1)).all fun n =>
        continuesWord (Char.ofNat n) == false) = true := by
    decide +kernel
  obtain ⟨range, hmem, hlow, hhigh⟩ := inRanges_iff.mp h
  have hpoint := List.all_eq_true.mp (List.all_eq_true.mp hall range hmem) c.toNat
    (List.mem_range'_1.mpr ⟨hlow, by omega⟩)
  rwa [beq_iff_eq, Char.ofNat_toNat] at hpoint

theorem Apart.continuesWord_eq_false {rest : List Char} (h : Apart rest) :
    ∀ c ∈ rest.head?, continuesWord c = false := by
  intro c hc
  rcases h c hc with hblank | rfl
  · exact continuesWord_of_isBlank hblank
  · decide

theorem Apart.isDigit_eq_false {rest : List Char} (h : Apart rest) :
    ∀ c ∈ rest.head?, c.isDigit = false := by
  intro c hc
  rw [Bool.eq_false_iff]
  intro hdigit
  obtain ⟨hblank, hcomment⟩ := not_gap_of_isDigit hdigit
  rcases h c hc with hblank' | rfl
  · rw [hblank] at hblank'
    simp at hblank'
  · exact hcomment rfl

theorem Apart.endsBefore {rest : List Char} (h : Apart rest) (token : Token) :
    token.EndsBefore rest := by
  cases token with
  | int value => exact h.isDigit_eq_false
  | name text => exact h.continuesWord_eq_false
  | keyword word => exact h.continuesWord_eq_false
  | string text => exact fun _ _ => rfl
  | symbol mark =>
    cases mark with
    | equals =>
      intro c hc
      rw [Token.goesOn, beq_eq_false_iff_ne]
      intro hequals
      subst hequals
      rcases h '=' hc with hblank | hcomment
      · exact absurd hblank (by decide)
      · exact absurd hcomment (by decide)
    | _ => exact fun _ _ => rfl

theorem Spells.longest_of_apart {text rest : List Char} {token : Token} (h : Spells text token)
    (hrest : Apart rest) : Longest text rest :=
  h.longest_iff.mpr (hrest.endsBefore token)

/-! ## Where nothing can be read -/

/-- Nothing can be read at a quote that is not followed by another, and at a character that begins
no token, whatever comes after it. -/
theorem readToken_eq_error {c : Char} {text : List Char} {fault : Fault}
    (h : readToken c text = .error fault) :
    (c = '"' ∧ '"' ∉ text ∧ fault = .unclosedString) ∨
      (c ≠ '"' ∧ fault = .strangeCharacter c ∧
        ∀ other, readToken c other = .error (.strangeCharacter c)) := by
  unfold readToken at h
  dsimp only at h
  split at h
  · next hc =>
    split at h
    · simp at h
    · next hlength =>
      have hwhole := (List.takeWhile_prefix (· != '"')).eq_of_length_le (Nat.not_lt.mp hlength)
      refine .inl ⟨hc, ?_, (Except.error.inj h).symm⟩
      rw [← hwhole]
      exact quote_notMem_takeWhile text
  split at h
  · simp at h
  split at h
  · simp at h
  split at h
  · simp at h
  split at h
  · simp at h
  · next hquote hdigit hword _ _ hmark =>
    refine .inr ⟨hquote, (Except.error.inj h).symm, fun other => ?_⟩
    have hequals : c ≠ '=' := by
      intro hequals
      subst hequals
      simp [Symbol.ofChar?] at hmark
    unfold readToken
    rw [if_neg hquote, if_neg hdigit, if_neg hword, if_neg fun both => hequals both.1, hmark]

/-- A character at which nothing can be read, be the rest as it may, begins no token. -/
theorem not_spells_of_readToken {c : Char}
    (h : ∀ text, readToken c text = .error (.strangeCharacter c)) (letters : List Char)
    (token : Token) : ¬ Spells (c :: letters) token := by
  intro hspells
  obtain ⟨_, _, _, -, hread, -⟩ := hspells.readToken_of_prefix (List.prefix_refl (c :: letters))
  rw [h] at hread
  simp at hread

/-! ## Numerals and strings -/

theorem toDigits_digit {c : Char} (h : c.isDigit = true) :
    Nat.toDigits 10 (c.toNat - 48) = [c] := by
  have hrange : 48 ≤ c.toNat ∧ c.toNat ≤ 57 := Char.isDigit_iff_toNat.mp h
  rw [Nat.toDigits_of_lt_base (by omega)]
  have hdigit : (c.toNat - 48).digitChar.toNat = c.toNat := by
    rw [Nat.toNat_digitChar_of_lt_ten (by omega)]
    omega
  rw [Char.toNat_inj.mp hdigit]

/-- Digits after a number are the digits after its numeral. -/
theorem toDigits_ofDigitChars {digits : List Char} (h : ∀ c ∈ digits, c.isDigit = true)
    {init : Nat} (hinit : 0 < init) :
    Nat.toDigits 10 (Nat.ofDigitChars 10 digits init) = Nat.toDigits 10 init ++ digits := by
  induction digits generalizing init with
  | nil => simp
  | cons c digits ih =>
    obtain ⟨hc, hdigits⟩ := List.forall_mem_cons.mp h
    have hrange : 48 ≤ c.toNat ∧ c.toNat ≤ 57 := Char.isDigit_iff_toNat.mp hc
    have hnext : Nat.toDigits 10 (10 * init + (c.toNat - 48)) = Nat.toDigits 10 init ++ [c] := by
      rw [← Nat.toDigits_append_toDigits (by decide) hinit (by omega), toDigits_digit hc]
    have hzero : '0'.toNat = 48 := by decide
    rw [Nat.ofDigitChars_cons, hzero, ih hdigits (by omega), hnext, List.append_assoc,
      List.singleton_append]

/-- The numeral of a number is its digits without the zeros in front. -/
theorem toList_repr_ofDigitChars {digits : List Char} (h : ∀ c ∈ digits, c.isDigit = true) :
    (Nat.ofDigitChars 10 digits 0).repr.toList = numeral digits := by
  rw [Nat.toList_repr]
  induction digits with
  | nil => simp [numeral]
  | cons c digits ih =>
    obtain ⟨hc, hdigits⟩ := List.forall_mem_cons.mp h
    have hzero : '0'.toNat = 48 := by decide
    rw [Nat.ofDigitChars_cons, hzero, Nat.mul_zero, Nat.zero_add]
    by_cases hfirst : c = '0'
    · subst hfirst
      rw [hzero, Nat.sub_self, ih hdigits]
      simp [numeral]
    · have hpos : 0 < c.toNat - 48 := by
        have hrange : 48 ≤ c.toNat ∧ c.toNat ≤ 57 := Char.isDigit_iff_toNat.mp hc
        have hne : c.toNat ≠ 48 := fun heq => hfirst (Char.toNat_inj.mp heq)
        omega
      rw [toDigits_ofDigitChars hdigits hpos, toDigits_digit hc]
      simp [numeral, hfirst]

theorem Spells.text_of_string {text : List Char} {inner : String}
    (h : Spells text (.string inner)) : text = '"' :: (inner.toList ++ ['"']) := by
  cases h
  rw [String.toList_ofList]

theorem Spells.numeral_of_int {text : List Char} {value : Nat} (h : Spells text (.int value)) :
    Nat.ofDigitChars 10 text 0 = value ∧ value.repr.toList = numeral text := by
  cases h with
  | digits _ hdigits => exact ⟨rfl, toList_repr_ofDigitChars hdigits⟩

end ScriptFacts
