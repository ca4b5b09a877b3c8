import ScriptFacts.Command.Files
import ScriptFacts.Fact.Basic
import ScriptFacts.SyntaxError
import ScriptFacts.Text.Terminal

/-!
# The log

What a run reports on its way. An event has a severity, a source, a message and fields; a threshold
keeps the events of some severity and of all that are more severe. A message may quote paths and
script text, so the characters in it that a terminal obeys are spelled out; the values of fields are
written as they are.
-/
namespace ScriptFacts.Command

/-! ## Severities -/

/-- How grave an event is, from the gravest. -/
inductive Severity
  | error
  | warn
  | info
  | debug
  | trace
deriving DecidableEq, Repr

namespace Severity

/-- The place of a severity, the gravest first. -/
def rank : Severity → Nat
  | error => 1
  | warn => 2
  | info => 3
  | debug => 4
  | trace => 5

/-- The label of a severity in the log. -/
def label : Severity → String
  | error => "ERROR"
  | warn => "WARN"
  | info => "INFO"
  | debug => "DEBUG"
  | trace => "TRACE"

end Severity

/-- The least severity that is kept; nothing is kept if there is none. -/
abbrev Threshold := Option Severity

namespace Threshold

/-- The threshold when none is asked for. -/
def standard : Threshold := some .info

/-- Whether a threshold keeps a severity. -/
def keeps (threshold : Threshold) (severity : Severity) : Bool :=
  threshold.any fun least => severity.rank ≤ least.rank

/-- The threshold of a name. -/
def ofName? (name : String) : Option Threshold :=
  match name with
  | "off" => some none
  | "error" => some (some .error)
  | "warn" => some (some .warn)
  | "info" => some (some .info)
  | "debug" => some (some .debug)
  | "trace" => some (some .trace)
  | _ => none

end Threshold

/-! ## Events -/

/-- Why a run fails. -/
inductive Failure
  | unreadable (path : String) (error : FileError)
  | noScript (error : SyntaxError)
  | unwritable (path : String) (error : FileError)
deriving DecidableEq, Repr

/-- The wording of a failure. -/
def Failure.message : Failure → String
  | unreadable path error => "failed to read " ++ path ++ ": " ++ error.text
  | noScript error => "Parsing Error: " ++ error.message
  | unwritable path error => "failed to write " ++ path ++ ": " ++ error.text

/-- Something that a run reports. -/
inductive Event
  /-- The input was read. -/
  | parsing
  /-- The text was cut into tokens, the end counted as one. -/
  | tokenized (tokens : Nat)
  /-- The script was laid out. -/
  | parsed (nodes : Nat)
  /-- The export begins. -/
  | generating
  /-- A fact was found. -/
  | emitted (fact : Fact)
  /-- The export is done. -/
  | exported (facts identifiers : Nat)
  /-- A file was written. -/
  | wrote (facts : Nat) (path : String)
  /-- The run ends here without success. -/
  | failed (failure : Failure)
deriving DecidableEq

namespace Event

/-- How grave an event is. -/
def severity : Event → Severity
  | parsing | generating | wrote .. => .info
  | tokenized _ | parsed _ | exported .. => .debug
  | emitted _ => .trace
  | failed _ => .error

/-- The part of the program that reports an event. -/
def source : Event → String
  | parsing | generating | wrote .. | failed _ => "mustfacts"
  | tokenized _ | parsed _ => "mustfacts::parser::parse"
  | emitted _ | exported .. => "mustfacts::facts::export"

/-- The message of an event. -/
def message : Event → String
  | parsing => "Parsing..."
  | tokenized _ => "tokenized source"
  | parsed _ => "parsed program"
  | generating => "Generating facts..."
  | emitted _ => "emit"
  | exported .. => "exported ast facts"
  | wrote facts path => "Wrote " ++ facts.repr ++ " facts to " ++ path
  | failed failure => failure.message

/-- The fields of an event, by name. -/
def fields : Event → List (String × String)
  | tokenized tokens => [("tokens", tokens.repr)]
  | parsed nodes => [("nodes", nodes.repr)]
  | emitted fact => [("fact", fact.render .quoted)]
  | exported facts identifiers => [("facts", facts.repr), ("identifiers", identifiers.repr)]
  | parsing | generating | wrote .. | failed _ => []

/-- The fields of an event as they are written after its message. -/
def fieldText (event : Event) : String :=
  String.join (event.fields.map fun (name, value) => " " ++ name ++ "=" ++ value)

/-- The entry of an event in the log. -/
def entry (event : Event) : String :=
  event.severity.label ++ " " ++ event.source ++ ": " ++ Text.spellOut event.message
    ++ event.fieldText

end Event

/-- The entries of the events that a threshold keeps. -/
def Threshold.entries (threshold : Threshold) (events : List Event) : List String :=
  (events.filter fun event => threshold.keeps event.severity).map Event.entry

end ScriptFacts.Command
