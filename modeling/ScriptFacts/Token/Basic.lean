/-!
# Tokens

A token is an integer, a quoted string, a name, one of seven keywords or one of sixteen symbols.
The end of a text is no token.

* `Token.ofWord_keyword`: the spelling of a keyword is read as that keyword.
* `Token.ofWord_eq_name_iff`: a word is read as a name exactly when it spells no keyword.
-/
namespace ScriptFacts

/-- A reserved word. -/
inductive Keyword
  | print
  /-- Heads a conditional statement. -/
  | cond
  /-- Heads a loop. -/
  | loop
  /-- Heads a procedure definition. -/
  | proc
  | or
  | and
  | not
deriving DecidableEq, Repr

/-- A mark made of one or two characters. -/
inductive Symbol
  | plus
  | minus
  | star
  | slash
  | doubleEquals
  | less
  | greater
  | equals
  | openParen
  | closeParen
  | openBrace
  | closeBrace
  | openBracket
  | closeBracket
  | semicolon
  | comma
deriving DecidableEq, Repr

/-- A unit of source text. -/
inductive Token
  | int (value : Nat)
  | string (text : String)
  | name (text : String)
  | keyword (word : Keyword)
  | symbol (mark : Symbol)
deriving DecidableEq, Repr

namespace Keyword

/-- The word itself. -/
def spelling : Keyword → String
  | print => "print"
  | cond => "if"
  | loop => "while"
  | proc => "def"
  | or => "or"
  | and => "and"
  | not => "not"

/-- Every keyword once. -/
def all : List Keyword := [print, cond, loop, proc, or, and, not]

theorem mem_all (word : Keyword) : word ∈ all := by
  cases word <;> decide

/-- The keyword that a word spells, if any. -/
def ofSpelling? (word : String) : Option Keyword :=
  all.find? fun keyword => keyword.spelling = word

theorem ofSpelling?_spelling (word : Keyword) : ofSpelling? word.spelling = some word := by
  cases word <;> decide

theorem spelling_of_ofSpelling? {word : String} {keyword : Keyword}
    (h : ofSpelling? word = some keyword) : keyword.spelling = word := by
  simpa using List.find?_some h

end Keyword

namespace Symbol

/-- The characters of the mark. -/
def spelling : Symbol → String
  | plus => "+"
  | minus => "-"
  | star => "*"
  | slash => "/"
  | doubleEquals => "=="
  | less => "<"
  | greater => ">"
  | equals => "="
  | openParen => "("
  | closeParen => ")"
  | openBrace => "\x7b"
  | closeBrace => "\x7d"
  | openBracket => "["
  | closeBracket => "]"
  | semicolon => ";"
  | comma => ","

/-- The mark that consists of one character, if any. -/
def ofChar? : Char → Option Symbol
  | '+' => some plus
  | '-' => some minus
  | '*' => some star
  | '/' => some slash
  | '<' => some less
  | '>' => some greater
  | '=' => some equals
  | '(' => some openParen
  | ')' => some closeParen
  | '{' => some openBrace
  | '}' => some closeBrace
  | '[' => some openBracket
  | ']' => some closeBracket
  | ';' => some semicolon
  | ',' => some comma
  | _ => none

end Symbol

namespace Token

/-- A word is the keyword it spells, and otherwise a name. -/
def ofWord (word : String) : Token :=
  match Keyword.ofSpelling? word with
  | some reserved => .keyword reserved
  | none => .name word

theorem ofWord_keyword (word : Keyword) : ofWord word.spelling = .keyword word := by
  simp [ofWord, Keyword.ofSpelling?_spelling]

theorem ofWord_eq_name_iff {word text : String} :
    ofWord word = .name text ↔ text = word ∧ Keyword.ofSpelling? word = none := by
  unfold ofWord
  split
  · next h => simp [h]
  · next h => simp [h, eq_comm]

/-- How messages name a token. -/
def describe : Token → String
  | int value => "int literal " ++ value.repr
  | string text => "string literal \"" ++ text ++ "\""
  | name text => "identifier '" ++ text ++ "'"
  | keyword word => "'" ++ word.spelling ++ "'"
  | symbol mark => "'" ++ mark.spelling ++ "'"

/-- The spelling of a token that is an operator. -/
def operator? : Token → Option String
  | keyword .or => some "or"
  | keyword .and => some "and"
  | keyword .not => some "not"
  | symbol .plus => some "+"
  | symbol .minus => some "-"
  | symbol .star => some "*"
  | symbol .slash => some "/"
  | symbol .doubleEquals => some "=="
  | symbol .less => some "<"
  | symbol .greater => some ">"
  | _ => none

end Token

end ScriptFacts
