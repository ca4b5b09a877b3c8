import ScriptFacts.Program.Source

/-!
# Command lines

A command line names one input, and may say where the facts go, how relation names are written and
how deep a script may nest. Arguments are taken from left to right; the first fault ends the
command, unless a request for the version or the help stands before it. Whether an input is
given, and whether two places for the facts are, is decided at the end. What follows from the
options is none of the reader's business: it hands on what was said.

* An option that takes a value finds it after `=`, or in the next argument, which then must not
  begin with a dash, unless it is the dash alone. The short form may also have it attached.
* After `--`, every argument is an input.
-/
namespace ScriptFacts.Command

/-! ## What can be asked for -/

/-- What a command line says about an export. -/
structure Options where
  /-- The path of the script. -/
  input : String
  /-- The path of the file to which the facts are to go, if one is named. -/
  output : Option String
  /-- Whether the facts are to be printed instead. -/
  stdout : Bool
  /-- Whether relation names are to be written without quotes. -/
  bareRelations : Bool
  /-- How deep the script may nest. -/
  maxDepth : Nat
deriving DecidableEq, Repr

/-- What a command line asks for. -/
inductive Request
  | export (options : Options)
  | version
  | help
deriving DecidableEq, Repr

/-- Why a command line asks for nothing. -/
inductive Misuse
  | unknownOption (argument : String)
  | unexpectedValue (argument : String)
  | missingValue (argument : String)
  | badValue (name value : String)
  | repeated (name : String)
  | secondInput (argument : String)
  | missingInput
  | twoDestinations
deriving DecidableEq, Repr

/-- The wording of a misuse. -/
def Misuse.message : Misuse → String
  | unknownOption argument => "unexpected argument '" ++ argument ++ "'"
  | unexpectedValue argument => "a flag takes no value: '" ++ argument ++ "'"
  | missingValue argument => "a value is required for '" ++ argument ++ "'"
  | badValue name value => "invalid value '" ++ value ++ "' for " ++ name
  | repeated name => name ++ " cannot be used multiple times"
  | secondInput argument => "unexpected argument '" ++ argument ++ "'"
  | missingInput => "the input is missing"
  | twoDestinations => "--stdout cannot be used with --output"

/-! ## Single arguments -/

/-- An option without a value. -/
inductive Flag
  | stdout
  | bareRelations
deriving DecidableEq, Repr

/-- An option with a value. -/
inductive Setting
  | output
  | maxDepth
deriving DecidableEq, Repr

/-- What an argument before `--` is. -/
inductive Argument
  | separator
  | flag (flag : Flag)
  | setting (setting : Setting) (value : Option String)
  | version
  | help
  | word
  | fault (misuse : Misuse)
deriving DecidableEq, Repr

/-- What a long option is, given its name and the text after its `=`, if it has one. -/
def Argument.ofLong (argument name : String) (value : Option String) : Argument :=
  let plain (meaning : Argument) : Argument :=
    if value.isNone then meaning else .fault (.unexpectedValue argument)
  if name = "output" then .setting .output value
  else if name = "max-depth" then .setting .maxDepth value
  else if name = "stdout" then plain (.flag .stdout)
  else if name = "bare-relations" then plain (.flag .bareRelations)
  else if name = "version" then plain .version
  else if name = "help" then plain .help
  else .fault (.unknownOption argument)

/-- The value attached to a short option: what follows it, less an `=` in front. -/
def attachedValue : List Char → Option String
  | [] => none
  | '=' :: value => some (String.ofList value)
  | value => some (String.ofList value)

/-- What an argument is. -/
def Argument.of (argument : String) : Argument :=
  match argument.toList with
  | ['-', '-'] => .separator
  | '-' :: '-' :: text =>
    let name := String.ofList (text.takeWhile (· != '='))
    match text.dropWhile (· != '=') with
    | [] => ofLong argument name none
    | _ :: value => ofLong argument name (some (String.ofList value))
  | ['-'] => .word
  | '-' :: 'o' :: value => .setting .output (attachedValue value)
  | '-' :: 'V' :: _ => .version
  | '-' :: 'h' :: _ => .help
  | '-' :: _ => .fault (.unknownOption argument)
  | _ => .word

/-- Whether an argument may be the value of the option before it. -/
def mayBeValue (argument : String) : Bool :=
  match argument.toList with
  | ['-'] => true
  | '-' :: _ => false
  | _ => true

/-- The largest nesting limit that can be asked for: the largest number of 64 bits. -/
def maxLimit : Nat := 18446744073709551615

/-- Reads a nesting limit: decimal digits, which may follow a plus sign. -/
def limitOf? (text : String) : Option Nat :=
  let digits := match text.toList with
    | '+' :: digits => digits
    | digits => digits
  let limit := Nat.ofDigitChars 10 digits 0
  if digits ≠ [] ∧ digits.all Char.isDigit ∧ limit ≤ maxLimit then some limit else none

/-! ## Whole command lines -/

/-- What the arguments so far have said. -/
structure Draft where
  input : Option String
  output : Option String
  maxDepth : Option Nat
  stdout : Bool
  bareRelations : Bool
deriving DecidableEq, Repr

namespace Draft

/-- Nothing said. -/
def blank : Draft := ⟨none, none, none, false, false⟩

/-- Raises a flag. -/
def raise (draft : Draft) : Flag → Except Misuse Draft
  | .stdout =>
    if draft.stdout then .error (.repeated "--stdout") else .ok { draft with stdout := true }
  | .bareRelations =>
    if draft.bareRelations then .error (.repeated "--bare-relations")
    else .ok { draft with bareRelations := true }

/-- Gives an option its value. -/
def set (draft : Draft) (value : String) : Setting → Except Misuse Draft
  | .output =>
    if value = "" then .error (.badValue "--output" value)
    else if draft.output.isSome then .error (.repeated "--output")
    else .ok { draft with output := some value }
  | .maxDepth =>
    match limitOf? value with
    | none => .error (.badValue "--max-depth" value)
    | some limit =>
      if draft.maxDepth.isSome then .error (.repeated "--max-depth")
      else .ok { draft with maxDepth := some limit }

/-- Takes an input. -/
def take (draft : Draft) (input : String) : Except Misuse Draft :=
  if input = "" then .error (.badValue "the input" input)
  else if draft.input.isSome then .error (.secondInput input)
  else .ok { draft with input := some input }

/-- What the whole command line asks for. -/
def finish (draft : Draft) : Except Misuse Request :=
  match draft.input with
  | none => .error .missingInput
  | some input =>
    if draft.stdout ∧ draft.output.isSome then .error .twoDestinations
    else .ok (.export {
      input
      output := draft.output
      stdout := draft.stdout
      bareRelations := draft.bareRelations
      maxDepth := draft.maxDepth.getD defaultLimit })

/-- Goes on with arguments after a separator. -/
def readInputs (draft : Draft) : List String → Except Misuse Request
  | [] => draft.finish
  | argument :: arguments => do (← draft.take argument).readInputs arguments

/-- Goes on with arguments. -/
def read (draft : Draft) : List String → Except Misuse Request
  | [] => draft.finish
  | argument :: arguments =>
    match Argument.of argument with
    | .separator => draft.readInputs arguments
    | .version => .ok .version
    | .help => .ok .help
    | .fault misuse => .error misuse
    | .word => do (← draft.take argument).read arguments
    | .flag flag => do (← draft.raise flag).read arguments
    | .setting setting (some value) => do (← draft.set value setting).read arguments
    | .setting setting none =>
      match arguments with
      | [] => .error (.missingValue argument)
      | value :: arguments =>
        if mayBeValue value then do (← draft.set value setting).read arguments
        else .error (.missingValue argument)

end Draft

/-- What a command line asks for. -/
def Request.ofArguments (arguments : List String) : Except Misuse Request :=
  Draft.blank.read arguments

end ScriptFacts.Command
