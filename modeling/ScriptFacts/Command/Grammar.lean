import ScriptFacts.Command.Arguments

/-!
# The grammar of command lines

A command line is a sequence of remarks. A remark is made by one argument, or by the name of an
option and the argument after it, which is its value. After the separator every argument names an
input. The remarks ask for an export if nothing is said twice, an input is named, and the facts are
not both to be printed and to go to a file.

Nothing is said here about how a command line is read, or about what is wrong with one that asks for
nothing.
-/
namespace ScriptFacts.Command

/-! ## Remarks -/

/-- Something that a command line says. -/
inductive Remark
  | input (path : String)
  | output (path : String)
  | maxDepth (limit : Nat)
  | stdout
  | bareRelations
deriving DecidableEq, Repr

/-- What a remark is about. -/
inductive Topic
  | input
  | output
  | maxDepth
  | stdout
  | bareRelations
deriving DecidableEq, Repr

/-- The topic of a remark. -/
def Remark.topic : Remark → Topic
  | input _ => .input
  | output _ => .output
  | maxDepth _ => .maxDepth
  | stdout => .stdout
  | bareRelations => .bareRelations

/-! ## Options -/

/-- What a flag says. -/
def Flag.remark : Flag → Remark
  | stdout => .stdout
  | bareRelations => .bareRelations

/-- How a flag is spelled. -/
def Flag.spelling : Flag → String
  | stdout => "--stdout"
  | bareRelations => "--bare-relations"

/-- The names of an option that has a value. -/
def Setting.names : Setting → List String
  | output => ["--output", "-o"]
  | maxDepth => ["--max-depth"]

/-- An option and its value in one argument. -/
inductive Setting.Joins : Setting → (value argument : String) → Prop
  | output (value : String) : Joins .output value ("--output=" ++ value)
  | maxDepth (value : String) : Joins .maxDepth value ("--max-depth=" ++ value)
  | shortEquals (value : String) : Joins .output value ("-o=" ++ value)
  | short {value : String} (hne : value ≠ "") (hequals : value.toList.head? ≠ some '=') :
    Joins .output value ("-o" ++ value)

/-- A text is a nesting limit: the digits of a number of 64 bits, which may follow a plus sign. -/
def IsLimit (text : String) (limit : Nat) : Prop :=
  ∃ digits, (text.toList = digits ∨ text.toList = '+' :: digits) ∧ digits ≠ []
    ∧ (∀ c ∈ digits, c.isDigit = true) ∧ limit = Nat.ofDigitChars 10 digits 0 ∧ limit < UInt64.size

/-- What an option says with a value. -/
inductive Setting.Says : Setting → (value : String) → Remark → Prop
  | output {path : String} (hne : path ≠ "") : Says .output path (.output path)
  | maxDepth {text : String} {limit : Nat} (hlimit : IsLimit text limit) :
    Says .maxDepth text (.maxDepth limit)

/-! ## Command lines -/

/-- An argument that is no option: it does not begin with a dash, or it is the dash alone. -/
def IsWord (argument : String) : Prop :=
  argument = "-" ∨ argument.toList.head? ≠ some '-'

/-- Arguments that make a remark. -/
inductive Makes : List String → Remark → Prop
  | input {path : String} (hword : IsWord path) (hne : path ≠ "") : Makes [path] (.input path)
  | flag (flag : Flag) : Makes [flag.spelling] flag.remark
  | joined {setting : Setting} {value argument : String} {remark : Remark}
    (hjoined : setting.Joins value argument) (hmeans : setting.Says value remark) :
    Makes [argument] remark
  | apart {setting : Setting} {name value : String} {remark : Remark} (hname : name ∈ setting.names)
    (hword : IsWord value) (hmeans : setting.Says value remark) : Makes [name, value] remark

/-- What a command line says. -/
inductive Says : List String → List Remark → Prop
  | nothing : Says [] []
  | remark {front rest : List String} {remark : Remark} {remarks : List Remark}
    (hfront : Makes front remark) (hrest : Says rest remarks) :
    Says (front ++ rest) (remark :: remarks)
  | separator {paths : List String} (hne : ∀ path ∈ paths, path ≠ "") :
    Says ("--" :: paths) (paths.map .input)

/-- What remarks settle. A limit of which nothing is said is the usual one. -/
structure Settles (remarks : List Remark) (options : Options) : Prop where
  once : (remarks.map Remark.topic).Nodup
  input : .input options.input ∈ remarks
  output : ∀ path, options.output = some path ↔ .output path ∈ remarks
  stdout : options.stdout = true ↔ .stdout ∈ remarks
  bareRelations : options.bareRelations = true ↔ .bareRelations ∈ remarks
  maxDepth : .maxDepth options.maxDepth ∈ remarks
    ∨ (∀ limit, .maxDepth limit ∉ remarks) ∧ options.maxDepth = defaultLimit
  oneDestination : options.stdout = true → options.output = none

/-- A command line asks for an export with these options. -/
def Asks (arguments : List String) (options : Options) : Prop :=
  ∃ remarks, Says arguments remarks ∧ Settles remarks options

end ScriptFacts.Command
