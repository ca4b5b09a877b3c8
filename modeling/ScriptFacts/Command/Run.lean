import ScriptFacts.Arena.Layout
import ScriptFacts.Command.Arguments
import ScriptFacts.Command.Log
import ScriptFacts.Fact.Export

/-!
# Runs

A run reads its input, takes the script in it apart and puts its facts where they are asked for.
What it does with the text of its input is a plan, which touches no file; carrying a plan out is at
most one write.
-/
namespace ScriptFacts.Command

/-! ## Plans -/

/-- How a run ends. -/
inductive Action
  | fail (failure : Failure)
  | print (text : String)
  | write (path text : String) (facts : Nat)

/-- The events of a run before its end, and its end. -/
structure Plan where
  events : List Event
  action : Action

/-- The extension of files of facts. -/
def factsExtension : String := "facts.P"

/-- The output path for an input, when none is given. -/
def defaultOutput (input : String) : String :=
  String.ofList (Path.withExtension factsExtension.toList input.toList)

namespace Options

/-- How relation names are written. -/
def style (options : Options) : NameStyle :=
  if options.bareRelations then .bare else .quoted

/-- What becomes of a script's facts. -/
def deliver (options : Options) (facts : FactSet) : Action :=
  let text := facts.render options.style
  if options.stdout then .print text
  else .write (options.output.getD (defaultOutput options.input)) text facts.size

/-- The plan for a script. A statement that was laid out names only nodes before its own, so its
export does not fail. -/
def planScript (options : Options) (stmt : Stmt) : Plan :=
  let ast := stmt.toAst
  let progress := ast.export?.getD .start
  { events := [.parsed ast.arena.size, .generating]
      ++ progress.facts.toList.map .emitted
      ++ [.exported progress.facts.size progress.numbering.issued]
    action := options.deliver progress.facts }

/-- The plan for the tokens of a text. -/
def planStream (options : Options) (stream : TokenStream) : Plan :=
  match Stmt.ofStream options.maxDepth stream with
  | .error error => ⟨[], .fail (.noScript error)⟩
  | .ok stmt => options.planScript stmt

/-- The plan for a text. -/
def planText (options : Options) (text : String) : Plan :=
  match TokenStream.ofText text.toList with
  | .error error => ⟨[.parsing], .fail (.noScript error)⟩
  | .ok stream =>
    let plan := options.planStream stream
    { plan with events := .parsing :: .tokenized stream.size :: plan.events }

/-- The plan for what reading the input gave. -/
def plan (options : Options) : Except FileError String → Plan
  | .error error => ⟨[], .fail (.unreadable options.input error)⟩
  | .ok text => options.planText text

end Options

/-! ## Outcomes -/

variable {base : List String}

/-- What a run leaves behind. -/
structure Outcome (base : List String) where
  exitCode : Nat
  output : String
  events : List Event
  files : Files base

/-- Carries a plan out. -/
def Plan.run (plan : Plan) (files : Files base) : Outcome base :=
  match plan.action with
  | .fail failure => ⟨1, "", plan.events ++ [.failed failure], files⟩
  | .print text => ⟨0, text, plan.events, files⟩
  | .write path text facts =>
    match files.writeText path text with
    | .error error => ⟨1, "", plan.events ++ [.failed (.unwritable path error)], files⟩
    | .ok after => ⟨0, "", plan.events ++ [.wrote facts path], after⟩

/-- Runs an export. -/
def Options.run (options : Options) (files : Files base) : Outcome base :=
  (options.plan (files.readText options.input)).run files

/-! ## Commands -/

/-- The answer to a request for the version. -/
def versionText : String := "mustfacts 0.1.0\n"

/-- The answer to a request for help. -/
def helpText : String :=
  "Usage: mustfacts [OPTIONS] <INPUT>\n\n"
    ++ "  -o, --output <OUTPUT>    output file (default: the input with the extension facts.P)\n"
    ++ "      --stdout             print the facts to stdout instead of writing a file\n"
    ++ "      --bare-relations     write relation names without quotes\n"
    ++ "      --max-depth <DEPTH>  deepest nesting that is accepted (default: 1024)\n"
    ++ "  -h, --help               print help\n"
    ++ "  -V, --version            print version\n"

/-- Runs the command with these arguments. -/
def run (arguments : List String) (files : Files base) : Outcome base :=
  match Request.ofArguments arguments with
  | .error _ => ⟨2, "", [], files⟩
  | .ok .version => ⟨0, versionText, [], files⟩
  | .ok .help => ⟨0, helpText, [], files⟩
  | .ok (.export options) => options.run files

end ScriptFacts.Command
