import ScriptFacts.Program.StmtReader
import ScriptFacts.Token.Stream

/-!
# Reading scripts

A script is a text whose tokens are one statement, nested no deeper than a limit. The whole text is
cut into tokens before any statement is read, so a fault in a token is reported before anything
else.
-/
namespace ScriptFacts

/-- The nesting limit of a script when none is asked for. -/
def defaultLimit : Nat := 1024

/-- The error that a refusal amounts to in the text of a stream. -/
def TokenStream.errorOf (stream : TokenStream) (limit : Nat) (refusal : Refusal) : SyntaxError :=
  let (location, found) := stream.lookAt refusal.rest.length
  ⟨location, refusal.wanted limit, found⟩

namespace Stmt

/-- The statement that a stream of tokens denotes. -/
def ofStream (limit : Nat) (stream : TokenStream) : Except SyntaxError Stmt :=
  (ofTokens limit stream.tokens).mapError (stream.errorOf limit)

/-- The statement that a text denotes. -/
def ofText (limit : Nat) (text : List Char) : Except SyntaxError Stmt := do
  let stream ← TokenStream.ofText text
  ofStream limit stream

end Stmt

end ScriptFacts
