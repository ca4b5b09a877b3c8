import ScriptFacts.Token.Lexeme

/-!
# Spacing

The lexemes of a text can be written again, in their order, with other blanks and comments around
them. Something must stand between neighbours, which might run together otherwise; before the first
and after the last there may be nothing. A comment comes with the line feed that ends it, unless
nothing comes after it.
-/
namespace ScriptFacts

open Text

/-- A run of blanks and comments, each comment with the line feed that ends it. -/
inductive IsSeparator : List Char → Prop
  | nothing : IsSeparator []
  | blank {c : Char} {gap : List Char} :
      isBlank c = true → IsSeparator gap → IsSeparator (c :: gap)
  | comment {line gap : List Char} :
      '\n' ∉ line → IsSeparator gap → IsSeparator ('#' :: (line ++ '\n' :: gap))

/-- What may stand at the end: a separator, and perhaps a comment that the end of the text ends. -/
inductive IsTrailer : List Char → Prop
  | separator {gap : List Char} : IsSeparator gap → IsTrailer gap
  | comment {gap line : List Char} :
      IsSeparator gap → '\n' ∉ line → IsTrailer (gap ++ '#' :: line)

/-- Gaps to write before lexemes, one before each, and one more after the last. -/
structure Spacing where
  gaps : List (List Char)
  last : List Char
  isSeparator : ∀ gap ∈ gaps, IsSeparator gap
  /-- Only the first lexeme has no neighbour before it. -/
  apart : ∀ gap ∈ gaps.tail, gap ≠ []
  isTrailer : IsTrailer last

/-- Lexemes with these gaps before them, in place of their own. -/
def Lexeme.respace (gaps : List (List Char)) (lexemes : List Lexeme) : List Lexeme :=
  List.zipWith (fun gap lexeme => { lexeme with gap := gap }) gaps lexemes

/-- The text of lexemes that are spaced in this way. -/
def Spacing.write (spacing : Spacing) (lexemes : List Lexeme) : List Char :=
  Lexeme.flatten (Lexeme.respace spacing.gaps lexemes) ++ spacing.last

end ScriptFacts
