import ScriptFacts.SyntaxError
import ScriptFacts.Token.Lexeme

/-!
# Streams of tokens

The tokens of a text with the places where they begin, and the place where the text ends. A place
is that of the first character of a lexeme, found by passing over all text before it.

* `TokenStream.tokens_place`: giving tokens their places changes no token.
-/
namespace ScriptFacts

open Text

/-- A token and the place where it begins. -/
structure Placed where
  token : Token
  location : Location
deriving DecidableEq, Repr

/-- The tokens of a text, in order, and the place after its last character. -/
structure TokenStream where
  placed : List Placed
  finish : Location
deriving DecidableEq, Repr

namespace TokenStream

/-- Gives lexemes their places, the text before them ending `here`. -/
def place (here : Location) : List Lexeme → List Placed
  | [] => []
  | lexeme :: lexemes =>
    let begins := here.after lexeme.gap
    ⟨lexeme.token, begins⟩ :: place (begins.after lexeme.text) lexemes

/-- What was wanted and found at a fault. -/
def faultAt (location : Location) : Fault → SyntaxError
  | .unclosedString => ⟨location, .closingQuote, .endOfFile⟩
  | .strangeCharacter c => ⟨location, .token, .character c⟩

/-- The tokens of a text, or the error at the first place where there is none. -/
def ofText (text : List Char) : Except SyntaxError TokenStream :=
  let (lexemes, ending) := cut text
  let last := Location.start.after (Lexeme.flatten lexemes)
  match ending with
  | .finished gap => .ok ⟨place .start lexemes, last.after gap⟩
  | .stuck gap fault _ => .error (faultAt (last.after gap) fault)

/-- The tokens without their places. -/
def tokens (stream : TokenStream) : List Token :=
  stream.placed.map Placed.token

/-- The number of tokens, the end of the text counted as one. -/
def size (stream : TokenStream) : Nat :=
  stream.placed.length + 1

theorem tokens_place (here : Location) (lexemes : List Lexeme) :
    (place here lexemes).map Placed.token = lexemes.map Lexeme.token := by
  induction lexemes generalizing here with
  | nil => rfl
  | cons lexeme lexemes ih => simp [place, ih]

/-- What stands where `remaining` tokens are left to read, and the place of it. -/
def lookAt (stream : TokenStream) (remaining : Nat) : Location × Found :=
  match stream.placed.drop (stream.placed.length - remaining) with
  | [] => (stream.finish, .endOfFile)
  | next :: _ => (next.location, .token next.token)

end TokenStream

end ScriptFacts
