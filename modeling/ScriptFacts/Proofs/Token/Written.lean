import ScriptFacts.Program.Printer
import ScriptFacts.Proofs.Token.Splits
import ScriptFacts.Token.Stream

/-!
# Tokens that were written

Tokens written with a space after each are cut apart again as they were, provided that each of them
could have been read from some text at all: a string holds no quote, and a name is a word that is
not reserved.

* `TokenStream.writable_of_ofText`: whatever is read can be written.
* `TokenStream.tokens_of_writeAll`: whatever can be written is read back.
-/
namespace ScriptFacts

open Text

/-! ## Tokens that have a text -/

/-- A token that can be read from some text. -/
def Token.Writable : Token → Prop
  | string text => '"' ∉ text.toList
  | name text => isWord text.toList ∧ Keyword.ofSpelling? text = none
  | int _ | keyword _ | symbol _ => True

theorem Spells.writable {text : List Char} {token : Token} (h : Spells text token) :
    token.Writable := by
  cases h with
  | digits _ _ | reserved word | mark mark => trivial
  | @quoted inner hquote =>
    show '"' ∉ (String.ofList inner).toList
    rwa [String.toList_ofList]
  | @name c letters hstart hletters hnone =>
    refine ⟨?_, Keyword.ofSpelling?_eq_none hnone⟩
    rw [String.toList_ofList, isWord, hstart]
    exact List.all_eq_true.mpr hletters

/-- A stream has the tokens of the lexemes of its text, in order. -/
theorem TokenStream.ofText_eq_ok_iff {text : List Char} {stream : TokenStream} :
    TokenStream.ofText text = .ok stream ↔
      ∃ lexemes gap, cut text = (lexemes, .finished gap) ∧ stream
        = ⟨place .start lexemes, (Location.start.after (Lexeme.flatten lexemes)).after gap⟩ := by
  unfold TokenStream.ofText
  obtain ⟨lexemes, ending⟩ := cut text
  cases ending with
  | finished gap =>
    constructor
    · intro h
      exact ⟨lexemes, gap, rfl, (Except.ok.inj h).symm⟩
    · intro h
      obtain ⟨_, _, hcut, rfl⟩ := h
      obtain ⟨rfl, rfl⟩ := hcut
      rfl
  | stuck gap fault rest => simp

/-- A text without a stream has its error where the last lexeme and the gap after it end. -/
theorem TokenStream.ofText_eq_error_iff {text : List Char} {error : SyntaxError} :
    TokenStream.ofText text = .error error ↔
      ∃ lexemes gap fault rest, cut text = (lexemes, .stuck gap fault rest) ∧
        error = faultAt ((Location.start.after (Lexeme.flatten lexemes)).after gap) fault := by
  unfold TokenStream.ofText
  obtain ⟨lexemes, ending⟩ := cut text
  cases ending with
  | finished gap => simp
  | stuck gap fault rest =>
    constructor
    · intro h
      exact ⟨lexemes, gap, fault, rest, rfl, (Except.error.inj h).symm⟩
    · intro h
      obtain ⟨_, _, _, _, hcut, rfl⟩ := h
      obtain ⟨rfl, hending⟩ := Prod.mk.inj hcut
      obtain ⟨rfl, rfl, -⟩ := Ending.stuck.inj hending
      rfl

theorem TokenStream.writable_of_ofText {text : List Char} {stream : TokenStream}
    (h : TokenStream.ofText text = .ok stream) : ∀ token ∈ stream.tokens, token.Writable := by
  obtain ⟨lexemes, gap, hcut, rfl⟩ := TokenStream.ofText_eq_ok_iff.mp h
  intro token hmem
  rw [TokenStream.tokens, TokenStream.tokens_place] at hmem
  obtain ⟨lexeme, hlexeme, rfl⟩ := List.mem_map.mp hmem
  exact ((cut_eq_finished_iff.mp hcut).spells lexeme hlexeme).writable

/-- A token that can be written is spelled as it is written. -/
theorem Token.Writable.spells {token : Token} (h : token.Writable) :
    Spells token.spelling.toList token := by
  cases token with
  | int value =>
    have hdigits : ∀ c ∈ Nat.toDigits 10 value, c.isDigit = true := fun c hc =>
      Nat.isDigit_of_mem_toDigits (by decide) (by decide) hc
    have hspells := Spells.digits Nat.toDigits_ne_nil hdigits
    rw [Nat.ofDigitChars_ten_toDigits, ← Nat.toList_repr] at hspells
    exact hspells
  | string text =>
    have hspells := Spells.quoted h
    rw [String.ofList_toList] at hspells
    simpa [Token.spelling] using hspells
  | name text =>
    obtain ⟨c, letters, hletters, hstart, hmore⟩ := exists_of_isWord h.1
    have hspells := Spells.ofWord hstart hmore
    rw [← hletters, String.ofList_toList, Token.ofWord_eq_name_iff.mpr ⟨rfl, h.2⟩] at hspells
    exact hspells
  | keyword word => exact .reserved word
  | symbol mark => exact .mark mark

/-! ## Whole texts -/

/-- Written tokens split as they were, after a space or nothing. -/
theorem splits_writeAll {tokens : List Token} (h : ∀ token ∈ tokens, token.Writable)
    {gap : List Char} (hgap : ∀ rest, IsGap gap rest) :
    ∃ lexemes last, Splits (gap ++ Token.writeAll tokens) lexemes last [] ∧
      lexemes.map Lexeme.token = tokens := by
  induction tokens generalizing gap with
  | nil => exact ⟨[], gap, .nil (hgap []), rfl⟩
  | cons token tokens ih =>
    obtain ⟨htoken, htokens⟩ := List.forall_mem_cons.mp h
    have hspace : isBlank ' ' = true := by decide
    obtain ⟨lexemes, last, hsplits, hlexemes⟩ := ih htokens fun _ => .blank hspace .nothing
    have hapart : Apart ([' '] ++ Token.writeAll tokens) := by simp [Apart, hspace]
    have hcons := Splits.cons (hgap _) htoken.spells (htoken.spells.longest_of_apart hapart) hsplits
    have hwrite : gap ++ (token.spelling.toList ++ ([' '] ++ Token.writeAll tokens))
        = gap ++ Token.writeAll (token :: tokens) := by
      simp [Token.writeAll]
    rw [hwrite] at hcons
    exact ⟨_, last, hcons, by rw [List.map_cons, hlexemes]⟩

/-- Writable tokens have a text. -/
theorem TokenStream.tokens_of_writeAll {tokens : List Token}
    (h : ∀ token ∈ tokens, token.Writable) :
    ∃ stream, TokenStream.ofText (Token.writeAll tokens) = .ok stream ∧ stream.tokens = tokens := by
  obtain ⟨lexemes, gap, hsplits, hlexemes⟩ := splits_writeAll h fun _ => IsGap.nothing
  refine ⟨_, TokenStream.ofText_eq_ok_iff.mpr
    ⟨lexemes, gap, cut_eq_finished_iff.mpr hsplits, rfl⟩, ?_⟩
  rw [TokenStream.tokens, TokenStream.tokens_place, hlexemes]

end ScriptFacts
