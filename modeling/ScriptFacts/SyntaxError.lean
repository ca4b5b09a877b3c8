import ScriptFacts.Text.Location
import ScriptFacts.Token.Basic

/-!
# Syntax errors

A text that is no script is refused with one error: where it went wrong, what was wanted there and
what was found instead. Wanted things are kept as data, and their wording stands in one place
each.
-/
namespace ScriptFacts

/-! ## What the grammar expects -/

/-- The part of a statement or an expression in which something was expected. -/
inductive Place
  | afterPrint
  | afterBlock
  | afterWord (word : Keyword)
  | afterCondition (word : Keyword)
  | afterProcedureName
  | afterParameters
  | afterArguments
  | afterCall
  | inAssignment
  | afterAssignment
  | afterIndex
  | afterParenthesized
  | inArray
deriving DecidableEq, Repr

/-- The wording of a place. -/
def Place.text : Place → String
  | afterPrint => "after print statement"
  | afterBlock => "after block"
  | afterWord word => "after '" ++ word.spelling ++ "'"
  | afterCondition word => "after '" ++ word.spelling ++ "' condition"
  | afterProcedureName => "after procedure name"
  | afterParameters => "after procedure parameters"
  | afterArguments => "after call arguments"
  | afterCall => "after call statement"
  | inAssignment => "in assignment"
  | afterAssignment => "after assignment"
  | afterIndex => "after index expression"
  | afterParenthesized => "after parenthesized expression"
  | inArray => "in array literal"

/-- What the grammar asks of the next token. -/
inductive Expectation
  /-- An expression begins here. -/
  | expression
  /-- The script is over. -/
  | endOfInput
  /-- A name stands here. -/
  | name (place : Place)
  /-- This mark stands here. -/
  | symbol (mark : Symbol) (place : Place)
  /-- A list goes on with a comma or ends with this mark. -/
  | commaOr (close : Symbol) (place : Place)
deriving DecidableEq, Repr

/-- The wording of an expectation. -/
def Expectation.text : Expectation → String
  | expression => "expression"
  | endOfInput => "end of input"
  | name place => "identifier " ++ place.text
  | symbol mark place => "'" ++ mark.spelling ++ "' " ++ place.text
  | commaOr close place => "',' or '" ++ close.spelling ++ "' " ++ place.text

/-! ## Errors -/

/-- What an error says was wanted. -/
inductive Wanted
  /-- Some token. -/
  | token
  /-- The quote that closes a string. -/
  | closingQuote
  /-- Statements and expressions nested no deeper than this. -/
  | nestingAtMost (limit : Nat)
  /-- What the grammar asks for. -/
  | part (expectation : Expectation)
deriving DecidableEq, Repr

/-- The wording of what was wanted. -/
def Wanted.text : Wanted → String
  | token => "a token"
  | closingQuote => "closing '\"' of string literal"
  | nestingAtMost limit => "nesting depth at most " ++ limit.repr
  | part expectation => expectation.text

/-- What stood in the text instead. -/
inductive Found
  | token (t : Token)
  | character (c : Char)
  | endOfFile
deriving DecidableEq, Repr

/-- The wording of what was found. -/
def Found.text : Found → String
  | token t => t.describe
  | character c => "character '" ++ String.singleton c ++ "'"
  | endOfFile => "end of file"

/-- Why a text is no script. -/
structure SyntaxError where
  location : Text.Location
  wanted : Wanted
  found : Found
deriving DecidableEq, Repr

/-- The whole error in one line. -/
def SyntaxError.message (error : SyntaxError) : String :=
  "parse error at line " ++ error.location.line.repr ++ ", column "
    ++ error.location.column.repr ++ ": expected " ++ error.wanted.text
    ++ ", found " ++ error.found.text

end ScriptFacts
