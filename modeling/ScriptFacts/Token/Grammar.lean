import ScriptFacts.Token.Lexeme

/-!
# The lexical grammar

Which texts are gaps, which texts spell which token, and how a text is split into them, all said
without reading anything.

* `IsGap`: blanks and comments, a comment going up to the end of its line or of the text.
* `Spells`: the texts of each token.
* `Longest`: no text of a token that begins in the same place goes further.
* `Splits`: gap, lexeme, gap, .., lexeme, gap, each lexeme being the longest.
* `Stuck`: text that goes on with neither a gap nor a lexeme.
-/
namespace ScriptFacts

open Text

/-- `IsGap gap rest`: before `rest`, the text `gap` is a run of blanks and comments. -/
inductive IsGap : List Char → List Char → Prop
  | nothing {rest : List Char} : IsGap [] rest
  | blank {c : Char} {gap rest : List Char} :
      isBlank c = true → IsGap gap rest → IsGap (c :: gap) rest
  /-- The line feed that ends a comment is not part of it; the end of the text ends it as well. -/
  | comment {line gap rest : List Char} :
      '\n' ∉ line → (∀ c ∈ (gap ++ rest).head?, c = '\n') → IsGap gap rest →
        IsGap ('#' :: (line ++ gap)) rest

/-- `Spells text token`: the token can be written as `text`. -/
inductive Spells : List Char → Token → Prop
  | digits {digits : List Char} :
      digits ≠ [] → (∀ c ∈ digits, c.isDigit = true) →
        Spells digits (.int (Nat.ofDigitChars 10 digits 0))
  | quoted {inner : List Char} :
      '"' ∉ inner → Spells ('"' :: (inner ++ ['"'])) (.string (String.ofList inner))
  | reserved (word : Keyword) : Spells word.spelling.toList (.keyword word)
  | name {c : Char} {letters : List Char} :
      startsWord c = true → (∀ d ∈ letters, continuesWord d = true) →
      (∀ word : Keyword, word.spelling.toList ≠ c :: letters) →
        Spells (c :: letters) (.name (String.ofList (c :: letters)))
  | mark (mark : Symbol) : Spells mark.spelling.toList (.symbol mark)

/-- Before `rest`, no text of a token that begins where `text` begins is longer than it. -/
def Longest (text rest : List Char) : Prop :=
  ∀ longer token, Spells longer token → longer <+: text ++ rest → longer.length ≤ text.length

/-- `Splits text lexemes gap rest`: the text consists of these lexemes with their gaps, of one more
gap, and of the rest. -/
inductive Splits : List Char → List Lexeme → List Char → List Char → Prop
  | nil {gap rest : List Char} : IsGap gap rest → Splits (gap ++ rest) [] gap rest
  | cons {gap text more last rest : List Char} {token : Token} {lexemes : List Lexeme} :
      IsGap gap (text ++ more) → Spells text token → Longest text more →
      Splits more lexemes last rest →
        Splits (gap ++ (text ++ more)) (⟨gap, text, token⟩ :: lexemes) last rest

/-- The text that begins with `c` goes on neither with a gap nor with a lexeme. -/
structure Stuck (c : Char) (more : List Char) : Prop where
  not_blank : isBlank c = false
  not_comment : c ≠ '#'
  no_lexeme : ∀ text token, Spells text token → ¬ text <+: c :: more

/-- Digits without the zeros in front, and one zero where there is nothing else. -/
def numeral (digits : List Char) : List Char :=
  if digits.all (· == '0') then ['0'] else digits.dropWhile (· == '0')

end ScriptFacts
