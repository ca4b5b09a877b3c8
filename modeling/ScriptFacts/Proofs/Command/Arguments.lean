import ScriptFacts.Command.Grammar

/-!
# Reading command lines

A command line is read as its grammar says: it asks for an export with some options exactly if its
remarks settle these options. Whatever the reader does not take for a request is no remark, and a
value is never taken for an option, because neither of them begins as an option does.

A draft that has heard some remarks records these and nothing else (`Draft.Records`), so it can tell
whether something was said already. A remark about a new topic is recorded beside them.

* `Argument.fits_of`: what each kind of argument looks like.
* `Draft.read_of_makes`: the arguments of a remark lead from one draft to the next.
* `Request.ofArguments_eq_ok_iff`: what a whole command line asks for.
* `Asks.unplaced`: nothing is said about where the facts go if no option says it.
-/
namespace ScriptFacts.Command

/-- Where two steps succeed, one after the other, each of them does. -/
theorem exists_of_bind {ε α β : Type} {first : Except ε α} {rest : α → Except ε β} {b : β}
    (h : (first >>= rest) = .ok b) : ∃ a, first = .ok a ∧ rest a = .ok b := by
  cases first with
  | error _ => cases h
  | ok a => exact ⟨a, rfl, h⟩

theorem ite_error_eq_ok_iff {ε α : Type} {c : Prop} [Decidable c] {error : ε} {rest : Except ε α}
    {a : α} : (if c then .error error else rest) = .ok a ↔ ¬ c ∧ rest = .ok a := by
  split <;> simp_all

theorem ok_eq_ok_iff {ε α : Type} {a b : α} : (.ok b : Except ε α) = .ok a ↔ a = b := by
  rw [Except.ok.injEq, eq_comm]

/-! ## Single arguments -/

namespace Argument

/-- What an argument of a kind looks like, if the argument may be part of a remark. -/
def Fits (argument : String) : Argument → Prop
  | separator => argument = "--"
  | flag raised => argument = raised.spelling
  | setting option none => argument ∈ option.names
  | setting option (some value) => option.Joins value argument
  | word => IsWord argument
  | version | help | fault _ => True

theorem fits_ofLong {argument name : String} (h : argument = "--" ++ name) :
    Fits argument (ofLong argument name none) := by
  simp only [ofLong, Option.isNone_none, if_true]
  split
  · next hname => exact h ▸ hname ▸ List.mem_cons_self
  split
  · next hname => exact h ▸ hname ▸ List.mem_cons_self
  split
  · next hname => exact h ▸ hname ▸ rfl
  split
  · next hname => exact h ▸ hname ▸ rfl
  split
  · trivial
  split <;> trivial

theorem fits_ofLong_some {argument name value : String}
    (h : argument = "--" ++ name ++ "=" ++ value) :
    Fits argument (ofLong argument name (some value)) := by
  simp only [ofLong, Option.isNone_some, Bool.false_eq_true, if_false]
  split
  · next hname => exact h ▸ hname ▸ .output value
  split
  · next hname => exact h ▸ hname ▸ .maxDepth value
  split
  · trivial
  split
  · trivial
  split
  · trivial
  split <;> trivial

theorem eq_append_ofList {argument : String} {front text : List Char}
    (h : argument.toList = front ++ text) :
    argument = String.ofList front ++ String.ofList text := by
  rw [← String.ofList_append, ← h, String.ofList_toList]

theorem attachedValue_eq {value : List Char} (hne : value ≠ []) (hequals : value.head? ≠ some '=') :
    attachedValue value = some (String.ofList value) := by
  unfold attachedValue
  split
  · exact absurd rfl hne
  · exact absurd rfl hequals
  · rfl

/-- Every argument looks like what it is taken for. -/
theorem fits_of (argument : String) : Fits argument (Argument.of argument) := by
  unfold Argument.of
  split
  · next h => exact String.toList_inj.mp h
  · next text _ h =>
    have hcut : argument = "--" ++ String.ofList (text.takeWhile (· != '='))
        ++ String.ofList (text.dropWhile (· != '=')) := by
      rw [String.append_assoc, ← String.ofList_append, List.takeWhile_append_dropWhile]
      exact eq_append_ofList h
    dsimp only
    split
    · next hdrop =>
      rw [hdrop] at hcut
      exact fits_ofLong (hcut.trans String.append_empty)
    · next first value hdrop =>
      have hfirst : first = '=' := by
        have := List.head?_dropWhile_not (· != '=') text
        rw [hdrop] at this
        simpa using this
      rw [hdrop, hfirst] at hcut
      have hvalue : String.ofList ('=' :: value) = "=" ++ String.ofList value :=
        eq_append_ofList String.toList_ofList
      rw [hvalue, ← String.append_assoc] at hcut
      exact fits_ofLong_some hcut
  · next h => exact .inl (String.toList_inj.mp h)
  · next value h =>
    cases value with
    | nil => exact .tail _ (List.mem_singleton.mpr (String.toList_inj.mp h))
    | cons first more =>
      by_cases hequals : first = '='
      · have hargument : argument = "-o=" ++ String.ofList more :=
          eq_append_ofList (hequals ▸ h)
        exact hargument ▸ hequals ▸ .shortEquals _
      · have hhead : (first :: more).head? ≠ some '=' := by simpa using hequals
        have hargument : argument = "-o" ++ String.ofList (first :: more) := eq_append_ofList h
        rw [attachedValue_eq (List.cons_ne_nil _ _) hhead]
        exact hargument ▸ .short (by simp) (by simpa using hequals)
  · trivial
  · trivial
  · trivial
  · next hdash =>
    refine .inr fun hhead => ?_
    obtain ⟨text, htext⟩ := List.head?_eq_some_iff.mp hhead
    exact hdash text htext

theorem fits_of_eq {argument : String} {meaning : Argument} (h : Argument.of argument = meaning) :
    Fits argument meaning :=
  h ▸ fits_of argument

theorem of_isWord {argument : String} (h : IsWord argument) : Argument.of argument = .word := by
  obtain rfl | hhead := h
  · decide +kernel
  · unfold Argument.of
    split <;> simp_all

theorem of_spelling (raised : Flag) : Argument.of raised.spelling = .flag raised := by
  cases raised <;> decide +kernel

theorem of_name {option : Setting} {name : String} (h : name ∈ option.names) :
    Argument.of name = .setting option none := by
  cases option with
  | output =>
    obtain rfl | rfl : name = "--output" ∨ name = "-o" := by simpa [Setting.names] using h
    · decide +kernel
    · decide +kernel
  | maxDepth =>
    obtain rfl : name = "--max-depth" := by simpa [Setting.names] using h
    decide +kernel

theorem of_long (name : String) {argument value : String} (hname : '=' ∉ name.toList)
    (h : argument.toList = '-' :: '-' :: (name.toList ++ '=' :: value.toList)) :
    Argument.of argument = ofLong argument name (some value) := by
  have hbefore (c : Char) (hc : c ∈ name.toList) : (c != '=') = true := by
    rw [bne_iff_ne]
    rintro rfl
    exact hname hc
  have htake : (name.toList ++ '=' :: value.toList).takeWhile (· != '=') = name.toList := by
    rw [List.takeWhile_append_of_pos hbefore]
    simp
  have hdrop : (name.toList ++ '=' :: value.toList).dropWhile (· != '=') = '=' :: value.toList := by
    rw [List.dropWhile_append_of_pos hbefore]
    simp
  obtain ⟨first, more, htext⟩ : ∃ first more, name.toList ++ '=' :: value.toList = first :: more :=
    List.exists_cons_of_ne_nil (List.append_ne_nil_of_right_ne_nil _ (List.cons_ne_nil _ _))
  rw [htext] at h htake hdrop
  unfold Argument.of
  rw [h]
  simp [htake, hdrop]

theorem of_joins {option : Setting} {value argument : String} (h : option.Joins value argument) :
    Argument.of argument = .setting option (some value) := by
  have hlist (front : String) : (front ++ value).toList = front.toList ++ value.toList :=
    String.toList_append
  cases h with
  | output => exact of_long "output" (by decide) (hlist "--output=")
  | maxDepth => exact of_long "max-depth" (by decide) (hlist "--max-depth=")
  | shortEquals =>
    unfold Argument.of
    rw [hlist]
    exact congrArg (fun value => setting .output (some value)) String.ofList_toList
  | short hne hequals =>
    have hattached : attachedValue value.toList = some value := by
      rw [attachedValue_eq (by simpa using hne) hequals, String.ofList_toList]
    unfold Argument.of
    rw [hlist]
    exact congrArg (setting .output) hattached

theorem mayBeValue_iff {argument : String} : mayBeValue argument = true ↔ IsWord argument := by
  unfold mayBeValue
  constructor
  · intro h
    split at h
    · next hdash => exact .inl (String.toList_inj.mp hdash)
    · cases h
    · next _ hdash =>
      refine .inr fun hhead => ?_
      obtain ⟨text, htext⟩ := List.head?_eq_some_iff.mp hhead
      exact hdash text htext
  · rintro (rfl | hhead)
    · decide +kernel
    · split <;> simp_all

end Argument

/-! ## Values -/

theorem limitOf?_eq_some_iff {text : String} {limit : Nat} :
    limitOf? text = some limit ↔ IsLimit text limit := by
  have hread (digits : List Char) :
      (if digits ≠ [] ∧ digits.all Char.isDigit ∧ Nat.ofDigitChars 10 digits 0 ≤ maxLimit then
        some (Nat.ofDigitChars 10 digits 0) else none) = some limit
      ↔ digits ≠ [] ∧ (∀ c ∈ digits, c.isDigit = true)
        ∧ limit = Nat.ofDigitChars 10 digits 0 ∧ limit < UInt64.size := by
    have hsize : maxLimit + 1 = UInt64.size := rfl
    rw [Option.ite_none_right_eq_some, List.all_eq_true]
    constructor
    · rintro ⟨⟨hne, hdigits, hle⟩, heq⟩
      obtain rfl := Option.some.inj heq
      exact ⟨hne, hdigits, rfl, by omega⟩
    · rintro ⟨hne, hdigits, rfl, hlt⟩
      exact ⟨⟨hne, hdigits, by omega⟩, rfl⟩
  unfold limitOf? IsLimit
  dsimp only
  split
  · next digits htext =>
    rw [hread]
    constructor
    · exact fun h => ⟨digits, .inr htext, h⟩
    · rintro ⟨other, hother, h⟩
      rw [htext] at hother
      obtain rfl | heq := hother
      · exact absurd (h.2.1 '+' List.mem_cons_self) (by decide)
      · exact List.tail_eq_of_cons_eq heq ▸ h
  · next hplus =>
    rw [hread]
    constructor
    · exact fun h => ⟨text.toList, .inl rfl, h⟩
    · rintro ⟨other, rfl | htext, h⟩
      · exact h
      · exact absurd htext (hplus other)

/-! ## Drafts -/

namespace Draft

variable {draft next final : Draft} {remark : Remark} {heard remarks : List Remark}
  {front arguments : List String} {options : Options}

/-- Nothing was said about a topic. -/
def Silent (draft : Draft) : Topic → Prop
  | .input => draft.input = none
  | .output => draft.output = none
  | .maxDepth => draft.maxDepth = none
  | .stdout => draft.stdout = false
  | .bareRelations => draft.bareRelations = false

/-- The draft after a remark. -/
def note (draft : Draft) : Remark → Draft
  | .input path => { draft with input := some path }
  | .output path => { draft with output := some path }
  | .maxDepth limit => { draft with maxDepth := some limit }
  | .stdout => { draft with stdout := true }
  | .bareRelations => { draft with bareRelations := true }

theorem take_eq_ok_iff {input : String} :
    draft.take input = .ok next
      ↔ input ≠ "" ∧ draft.Silent .input ∧ next = draft.note (.input input) := by
  rw [take, ite_error_eq_ok_iff, ite_error_eq_ok_iff, Option.not_isSome_iff_eq_none]
  exact and_congr_right' (and_congr_right' ok_eq_ok_iff)

theorem raise_eq_ok_iff {flag : Flag} :
    draft.raise flag = .ok next
      ↔ draft.Silent flag.remark.topic ∧ next = draft.note flag.remark := by
  cases flag <;>
  · rw [raise, ite_error_eq_ok_iff, Bool.not_eq_true]
    exact and_congr_right' ok_eq_ok_iff

theorem set_eq_ok_iff {setting : Setting} {value : String} :
    draft.set value setting = .ok next
      ↔ ∃ remark, setting.Says value remark ∧ draft.Silent remark.topic
        ∧ next = draft.note remark := by
  cases setting with
  | output =>
    rw [set, ite_error_eq_ok_iff, ite_error_eq_ok_iff, Option.not_isSome_iff_eq_none]
    constructor
    · rintro ⟨hne, hsilent, hnext⟩
      exact ⟨_, .output hne, hsilent, ok_eq_ok_iff.mp hnext⟩
    · rintro ⟨_, ⟨hne⟩, hsilent, hnext⟩
      exact ⟨hne, hsilent, ok_eq_ok_iff.mpr hnext⟩
  | maxDepth =>
    constructor
    · intro h
      simp only [set] at h
      split at h
      · cases h
      · next limit hlimit =>
        obtain ⟨hsilent, hnext⟩ := ite_error_eq_ok_iff.mp h
        rw [Option.not_isSome_iff_eq_none] at hsilent
        exact ⟨_, .maxDepth (limitOf?_eq_some_iff.mp hlimit), hsilent, ok_eq_ok_iff.mp hnext⟩
    · rintro ⟨_, hmeans, hsilent, hnext⟩
      cases hmeans with
      | maxDepth hlimit =>
        simp only [set, limitOf?_eq_some_iff.mpr hlimit]
        rw [ite_error_eq_ok_iff, Option.not_isSome_iff_eq_none]
        exact ⟨hsilent, ok_eq_ok_iff.mpr hnext⟩

/-! ## From one draft to the next -/

/-- A draft hears remarks, each of them on a topic that is new to it. -/
inductive Hears : Draft → List Remark → Draft → Prop
  | nothing (draft : Draft) : Hears draft [] draft
  | remark {draft : Draft} {remark : Remark} {remarks : List Remark} {final : Draft}
    (hsilent : draft.Silent remark.topic) (hrest : Hears (draft.note remark) remarks final) :
    Hears draft (remark :: remarks) final

/-- The arguments of a remark lead from one draft to the next. -/
theorem read_of_makes (h : Makes front remark) (hsilent : draft.Silent remark.topic)
    (rest : List String) : draft.read (front ++ rest) = (draft.note remark).read rest := by
  cases h with
  | @input path hword hne =>
    have htake := take_eq_ok_iff.mpr ⟨hne, hsilent, rfl⟩
    rw [List.singleton_append, read, Argument.of_isWord hword]
    show (draft.take path >>= fun next => next.read rest) = _
    rw [htake]
    rfl
  | flag raised =>
    have hraise := raise_eq_ok_iff.mpr ⟨hsilent, rfl⟩
    rw [List.singleton_append, read, Argument.of_spelling]
    show (draft.raise raised >>= fun next => next.read rest) = _
    rw [hraise]
    rfl
  | @joined setting value argument remark hjoined hmeans =>
    have hset := set_eq_ok_iff.mpr ⟨remark, hmeans, hsilent, rfl⟩
    rw [List.singleton_append, read, Argument.of_joins hjoined]
    show (draft.set value setting >>= fun next => next.read rest) = _
    rw [hset]
    rfl
  | @apart setting name value remark hname hword hmeans =>
    have hset := set_eq_ok_iff.mpr ⟨remark, hmeans, hsilent, rfl⟩
    rw [List.cons_append, List.singleton_append, read, Argument.of_name hname]
    dsimp only
    rw [if_pos (Argument.mayBeValue_iff.mpr hword)]
    show (draft.set value setting >>= fun next => next.read rest) = _
    rw [hset]
    rfl

theorem readInputs_eq_ok_iff {paths : List String} :
    draft.readInputs paths = .ok (.export options)
      ↔ (∀ path ∈ paths, path ≠ "") ∧ ∃ final, draft.Hears (paths.map .input) final
        ∧ final.finish = .ok (.export options) := by
  induction paths generalizing draft with
  | nil =>
    constructor
    · exact fun h => ⟨nofun, draft, .nothing draft, h⟩
    · rintro ⟨-, _, ⟨⟩, hfinish⟩
      exact hfinish
  | cons path paths ih =>
    rw [List.forall_mem_cons]
    constructor
    · intro h
      obtain ⟨next, htake, hnext⟩ := exists_of_bind h
      obtain ⟨hne, hsilent, rfl⟩ := take_eq_ok_iff.mp htake
      obtain ⟨hpaths, final, hhears, hfinish⟩ := ih.mp hnext
      exact ⟨⟨hne, hpaths⟩, final, .remark hsilent hhears, hfinish⟩
    · rintro ⟨⟨hne, hpaths⟩, final, hhears, hfinish⟩
      cases hhears with
      | remark hsilent hrest =>
        show (draft.take path >>= fun next => next.readInputs paths) = _
        rw [take_eq_ok_iff.mpr ⟨hne, hsilent, rfl⟩]
        exact ih.mpr ⟨hpaths, final, hrest, hfinish⟩

/-- What a draft and the arguments after it ask for. -/
theorem read_eq_ok_iff :
    draft.read arguments = .ok (.export options)
      ↔ ∃ remarks final, Says arguments remarks ∧ draft.Hears remarks final
        ∧ final.finish = .ok (.export options) := by
  constructor
  · intro h
    fun_induction Draft.read draft arguments with
    | case1 draft => exact ⟨[], draft, .nothing, .nothing draft, h⟩
    | case2 draft argument paths hof =>
      obtain ⟨hne, final, hhears, hfinish⟩ := readInputs_eq_ok_iff.mp h
      obtain rfl : argument = "--" := Argument.fits_of_eq hof
      exact ⟨_, final, .separator hne, hhears, hfinish⟩
    -- The version, the help, a fault, or a value that is missing: no export is asked for.
    | case3 | case4 | case5 | case9 | case11 => cases h
    | case6 draft argument arguments hof ih =>
      obtain ⟨next, htake, hnext⟩ := exists_of_bind h
      obtain ⟨hne, hsilent, rfl⟩ := take_eq_ok_iff.mp htake
      obtain ⟨remarks, final, hmeans, hhears, hfinish⟩ := ih _ hnext
      have hfits := Argument.fits_of_eq hof
      exact ⟨_, final, .remark (.input hfits hne) hmeans, .remark hsilent hhears, hfinish⟩
    | case7 draft argument arguments raised hof ih =>
      obtain ⟨next, hraise, hnext⟩ := exists_of_bind h
      obtain ⟨hsilent, rfl⟩ := raise_eq_ok_iff.mp hraise
      obtain ⟨remarks, final, hmeans, hhears, hfinish⟩ := ih _ hnext
      obtain rfl : argument = raised.spelling := Argument.fits_of_eq hof
      exact ⟨_, final, .remark (.flag raised) hmeans, .remark hsilent hhears, hfinish⟩
    | case8 draft argument arguments setting value hof ih =>
      obtain ⟨next, hset, hnext⟩ := exists_of_bind h
      obtain ⟨remark, hvalue, hsilent, rfl⟩ := set_eq_ok_iff.mp hset
      obtain ⟨remarks, final, hmeans, hhears, hfinish⟩ := ih _ hnext
      have hfits := Argument.fits_of_eq hof
      exact ⟨_, final, .remark (.joined hfits hvalue) hmeans, .remark hsilent hhears, hfinish⟩
    | case10 draft argument setting hof value arguments hword ih =>
      obtain ⟨next, hset, hnext⟩ := exists_of_bind h
      obtain ⟨remark, hvalue, hsilent, rfl⟩ := set_eq_ok_iff.mp hset
      obtain ⟨remarks, final, hmeans, hhears, hfinish⟩ := ih _ hnext
      have hfits := Argument.fits_of_eq hof
      have hmakes := Makes.apart hfits (Argument.mayBeValue_iff.mp hword) hvalue
      exact ⟨_, final, .remark hmakes hmeans, .remark hsilent hhears, hfinish⟩
  · rintro ⟨remarks, final, hmeans, hhears, hfinish⟩
    induction hmeans generalizing draft with
    | nothing =>
      cases hhears
      exact hfinish
    | remark hfront hrest ih =>
      cases hhears with
      | remark hsilent hhears =>
        rw [read_of_makes hfront hsilent]
        exact ih hhears
    | separator hne =>
      have hof : Argument.of "--" = .separator := by decide +kernel
      rw [read, hof]
      exact readInputs_eq_ok_iff.mpr ⟨hne, final, hhears, hfinish⟩

/-! ## What a draft records -/

/-- What was said about a topic, if anything was. -/
def said? (draft : Draft) : Topic → Option Remark
  | .input => draft.input.map .input
  | .output => draft.output.map .output
  | .maxDepth => draft.maxDepth.map .maxDepth
  | .stdout => if draft.stdout then some .stdout else none
  | .bareRelations => if draft.bareRelations then some .bareRelations else none

theorem silent_iff_said? {topic : Topic} : draft.Silent topic ↔ draft.said? topic = none := by
  cases topic <;> simp [Silent, said?]

theorem topic_of_said? {topic : Topic} (h : draft.said? topic = some remark) :
    remark.topic = topic := by
  cases topic with
  | input | output | maxDepth =>
    obtain ⟨_, _, rfl⟩ := Option.map_eq_some_iff.mp h
    rfl
  | stdout | bareRelations =>
    obtain ⟨_, hremark⟩ := Option.ite_none_right_eq_some.mp h
    cases hremark
    rfl

theorem said?_note_self : (draft.note remark).said? remark.topic = some remark := by
  cases remark <;> rfl

theorem said?_note_of_ne {topic : Topic} (h : topic ≠ remark.topic) :
    (draft.note remark).said? topic = draft.said? topic := by
  cases remark <;> cases topic <;> first | rfl | exact absurd rfl h

/-- A draft records remarks and nothing else, and no two of them are on one topic. -/
structure Records (draft : Draft) (heard : List Remark) : Prop where
  once : (heard.map Remark.topic).Nodup
  said?_eq : ∀ remark, draft.said? remark.topic = some remark ↔ remark ∈ heard

theorem records_blank : blank.Records [] where
  once := List.nodup_nil
  said?_eq remark := by cases remark <;> simp [blank, said?, Remark.topic]

/-- A draft is silent about what no remark is about. -/
theorem Records.silent_iff (h : draft.Records heard) (topic : Topic) :
    draft.Silent topic ↔ topic ∉ heard.map Remark.topic := by
  rw [silent_iff_said?]
  constructor
  · rintro hnone hmem
    obtain ⟨remark, hremark, rfl⟩ := List.mem_map.mp hmem
    rw [(h.said?_eq remark).mpr hremark] at hnone
    cases hnone
  · intro hnew
    cases hsaid : draft.said? topic with
    | none => rfl
    | some remark =>
      obtain rfl := topic_of_said? hsaid
      exact absurd (List.mem_map_of_mem ((h.said?_eq remark).mp hsaid)) hnew

theorem Records.note (h : draft.Records heard) (hnew : remark.topic ∉ heard.map Remark.topic) :
    (draft.note remark).Records (heard ++ [remark]) where
  once := by
    rw [List.map_append, List.nodup_append]
    refine ⟨h.once, by simp, ?_⟩
    rintro topic hmem other hother rfl
    exact hnew (List.mem_singleton.mp hother ▸ hmem)
  said?_eq other := by
    rw [List.mem_append, List.mem_singleton]
    by_cases htopic : other.topic = remark.topic
    · have hnot : other ∉ heard := fun hmem => hnew (htopic ▸ List.mem_map_of_mem hmem)
      rw [htopic, said?_note_self, Option.some.injEq, or_iff_right hnot, eq_comm]
    · have hne : other ≠ remark := fun heq => htopic (heq ▸ rfl)
      rw [said?_note_of_ne htopic, h.said?_eq, or_iff_left hne]

theorem Records.hears (h : draft.Records heard) (hhears : draft.Hears remarks final) :
    final.Records (heard ++ remarks) := by
  induction hhears generalizing heard with
  | nothing draft => rwa [List.append_nil]
  | @remark draft remark remarks final hsilent hrest ih =>
    have hnew := (h.silent_iff _).mp hsilent
    have hfinal := ih (h.note hnew)
    rwa [List.append_assoc, List.singleton_append] at hfinal

/-- A draft hears remarks if they and those that it has heard are on different topics. -/
theorem Records.exists_hears (h : draft.Records heard)
    (honce : ((heard ++ remarks).map Remark.topic).Nodup) : ∃ final, draft.Hears remarks final := by
  induction remarks generalizing draft heard with
  | nil => exact ⟨draft, .nothing draft⟩
  | cons remark remarks ih =>
    have hnew : remark.topic ∉ heard.map Remark.topic := by
      rw [List.map_append, List.map_cons] at honce
      exact fun hmem => (List.nodup_append.mp honce).2.2 _ hmem _ List.mem_cons_self rfl
    rw [← List.singleton_append, ← List.append_assoc] at honce
    obtain ⟨final, hfinal⟩ := ih (h.note hnew) honce
    exact ⟨final, .remark ((h.silent_iff _).mpr hnew) hfinal⟩

/-- A draft ends as its remarks settle it. -/
theorem Records.finish_eq_ok_iff (h : final.Records remarks) :
    final.finish = .ok (.export options) ↔ Settles remarks options := by
  have hinput (path : String) : final.input = some path ↔ .input path ∈ remarks := by
    simpa [said?, Remark.topic] using h.said?_eq (.input path)
  have houtput (path : String) : final.output = some path ↔ .output path ∈ remarks := by
    simpa [said?, Remark.topic] using h.said?_eq (.output path)
  have hdepth (limit : Nat) : final.maxDepth = some limit ↔ .maxDepth limit ∈ remarks := by
    simpa [said?, Remark.topic] using h.said?_eq (.maxDepth limit)
  have hstdout : final.stdout = true ↔ .stdout ∈ remarks := by
    simpa [said?, Remark.topic] using h.said?_eq .stdout
  have hbare : final.bareRelations = true ↔ .bareRelations ∈ remarks := by
    simpa [said?, Remark.topic] using h.said?_eq .bareRelations
  unfold finish
  constructor
  · intro hfinish
    split at hfinish
    · cases hfinish
    · next input hsome =>
      obtain ⟨hone, heq⟩ := ite_error_eq_ok_iff.mp hfinish
      cases heq
      refine ⟨h.once, (hinput input).mp hsome, houtput, hstdout, hbare, ?_, fun hprint => ?_⟩
      · cases hlimit : final.maxDepth with
        | none =>
          refine .inr ⟨fun limit hmem => ?_, rfl⟩
          rw [(hdepth limit).mpr hmem] at hlimit
          cases hlimit
        | some limit => exact .inl ((hdepth limit).mp hlimit)
      · exact Option.not_isSome_iff_eq_none.mp fun hsome => hone ⟨hprint, hsome⟩
  · intro hsettles
    have hsome := (hinput _).mpr hsettles.input
    have hsame : final.output = options.output :=
      Option.ext fun path => (houtput path).trans (hsettles.output path).symm
    have hprint : final.stdout = options.stdout :=
      Bool.eq_iff_iff.mpr (hstdout.trans hsettles.stdout.symm)
    have hnames : final.bareRelations = options.bareRelations :=
      Bool.eq_iff_iff.mpr (hbare.trans hsettles.bareRelations.symm)
    have hlimit : final.maxDepth.getD defaultLimit = options.maxDepth := by
      obtain hmem | ⟨hnone, heq⟩ := hsettles.maxDepth
      · rw [(hdepth _).mpr hmem, Option.getD_some]
      · have hsilent : final.maxDepth = none :=
          Option.eq_none_iff_forall_ne_some.mpr fun limit hlimit =>
            hnone limit ((hdepth limit).mp hlimit)
        rw [hsilent, heq, Option.getD_none]
    have hone : ¬ (options.stdout = true ∧ options.output.isSome = true) := by
      rintro ⟨hyes, hpath⟩
      rw [hsettles.oneDestination hyes] at hpath
      cases hpath
    rw [hsome, hsame, hprint, hnames, hlimit]
    exact if_neg hone

end Draft

/-- What a command line asks for. -/
theorem Request.ofArguments_eq_ok_iff {arguments : List String} {options : Options} :
    Request.ofArguments arguments = .ok (.export options) ↔ Asks arguments options := by
  rw [Request.ofArguments, Draft.read_eq_ok_iff]
  constructor
  · rintro ⟨remarks, final, hmeans, hhears, hfinish⟩
    exact ⟨remarks, hmeans, (Draft.records_blank.hears hhears).finish_eq_ok_iff.mp hfinish⟩
  · rintro ⟨remarks, hmeans, hsettles⟩
    obtain ⟨final, hhears⟩ := Draft.records_blank.exists_hears hsettles.once
    exact ⟨remarks, final, hmeans, hhears,
      (Draft.records_blank.hears hhears).finish_eq_ok_iff.mpr hsettles⟩

/-! ## Where the facts go -/

/-- Whether an argument names a place for the facts. -/
def Argument.namesPlace : Argument → Bool
  | flag .stdout => true
  | setting .output _ => true
  | _ => false

/-- No option of a command line names a place for the facts. The options stand before the
separator. -/
def NamesNoPlace (arguments : List String) : Prop :=
  ∀ argument ∈ arguments.takeWhile fun argument => Argument.of argument ≠ .separator,
    (Argument.of argument).namesPlace = false

theorem namesNoPlace_separator {argument : String} (h : Argument.of argument = .separator)
    (arguments : List String) : NamesNoPlace (argument :: arguments) := by
  intro other hother
  rw [List.takeWhile_cons, if_neg (by simp [h])] at hother
  cases hother

theorem namesNoPlace_cons {argument : String} (h : Argument.of argument ≠ .separator)
    (arguments : List String) :
    NamesNoPlace (argument :: arguments)
      ↔ (Argument.of argument).namesPlace = false ∧ NamesNoPlace arguments := by
  rw [NamesNoPlace, List.takeWhile_cons, if_pos (by simp [h]), List.forall_mem_cons]
  rfl

/-- A remark is about a place for the facts. -/
def Remark.IsPlace (remark : Remark) : Prop :=
  remark.topic = .output ∨ remark.topic = .stdout

theorem Setting.Says.isPlace_iff {option : Setting} {value : String} {remark : Remark}
    (h : option.Says value remark) (given : Option String) :
    remark.IsPlace ↔ (Argument.setting option given).namesPlace = true := by
  cases h <;> simp [Remark.IsPlace, Remark.topic, Argument.namesPlace]

theorem Makes.namesNoPlace_iff {front : List String} {remark : Remark} (h : Makes front remark)
    (rest : List String) : NamesNoPlace (front ++ rest) ↔ ¬ remark.IsPlace ∧ NamesNoPlace rest := by
  cases h with
  | input hword _ =>
    have hof := Argument.of_isWord hword
    rw [List.singleton_append, namesNoPlace_cons (by simp [hof]), hof]
    simp [Argument.namesPlace, Remark.IsPlace, Remark.topic]
  | flag raised =>
    have hof := Argument.of_spelling raised
    rw [List.singleton_append, namesNoPlace_cons (by simp [hof]), hof]
    cases raised <;> simp [Argument.namesPlace, Remark.IsPlace, Remark.topic, Flag.remark]
  | joined hjoined hmeans =>
    have hof := Argument.of_joins hjoined
    rw [List.singleton_append, namesNoPlace_cons (by simp [hof]), hof, hmeans.isPlace_iff,
      Bool.not_eq_true]
  | apart hname hword hmeans =>
    have hof := Argument.of_name hname
    have hvalue := Argument.of_isWord hword
    rw [List.cons_append, List.singleton_append, namesNoPlace_cons (by simp [hof]), hof,
      namesNoPlace_cons (by simp [hvalue]), hvalue, hmeans.isPlace_iff none, Bool.not_eq_true]
    simp [Argument.namesPlace]

theorem Says.namesNoPlace_iff {arguments : List String} {remarks : List Remark}
    (h : Says arguments remarks) :
    NamesNoPlace arguments ↔ ∀ remark ∈ remarks, ¬ remark.IsPlace := by
  induction h with
  | nothing => exact iff_of_true nofun nofun
  | remark hfront _ ih => rw [hfront.namesNoPlace_iff, ih, List.forall_mem_cons]
  | separator _ =>
    refine iff_of_true (namesNoPlace_separator (by decide +kernel) _) ?_
    simp [Remark.IsPlace, Remark.topic]

/-- Where no option names a place for the facts, the options that are asked for name none. -/
theorem Asks.unplaced {arguments : List String} {options : Options} (h : Asks arguments options)
    (hplace : NamesNoPlace arguments) : options.output = none ∧ options.stdout = false := by
  obtain ⟨remarks, hmeans, hsettles⟩ := h
  have hnone := hmeans.namesNoPlace_iff.mp hplace
  constructor
  · refine Option.eq_none_iff_forall_ne_some.mpr fun path hpath => ?_
    exact hnone _ ((hsettles.output path).mp hpath) (.inl rfl)
  · refine Bool.eq_false_iff.mpr fun hprint => ?_
    exact hnone _ (hsettles.stdout.mp hprint) (.inr rfl)

end ScriptFacts.Command
