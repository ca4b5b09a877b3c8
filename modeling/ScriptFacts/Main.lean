import ScriptFacts.Command.Run

/-!
# The program

Plans are made from the arguments and the text of the input; here they meet the files and the
streams of the system. The log goes to standard error.
-/
namespace ScriptFacts.Command

/-- The reason that the system gives for a failure. Some of its calls negate the number of an error;
of the two errors of a wrong kind of file, 21 says that there is a directory. -/
def FileError.ofSystem : IO.Error → FileError
  | .noFileOrDirectory .. => .missing
  | .inappropriateType _ code _ =>
    if code = 21 ∨ -code = 21 then .isDirectory else .notDirectory
  | error => .other error.toString

/-- The text of a file. -/
def readSource (path : String) : IO (Except FileError String) := do
  match ← (IO.FS.readBinFile path).toBaseIO with
  | .error error => return .error (.ofSystem error)
  | .ok content =>
    match String.fromUTF8? content with
    | some text => return .ok text
    | none => return .error .notText

/-- Reports events. -/
def report (threshold : Threshold) (events : List Event) : IO Unit :=
  (threshold.entries events).forM fun entry => IO.eprintln entry

/-- Carries a plan out, and tells the exit code. -/
def Plan.perform (plan : Plan) (threshold : Threshold) : IO UInt32 := do
  report threshold plan.events
  match plan.action with
  | .fail failure =>
    report threshold [.failed failure]
    return 1
  | .print text =>
    IO.print text
    (← IO.getStdout).flush
    return 0
  | .write path text facts =>
    match ← (IO.FS.writeFile path text).toBaseIO with
    | .error error =>
      report threshold [.failed (.unwritable path (.ofSystem error))]
      return 1
    | .ok _ =>
      report threshold [.wrote facts path]
      return 0

/-- The threshold that the environment asks for, by the name of a severity. -/
def thresholdOfEnvironment : IO Threshold := do
  let name? ← IO.getEnv "RUST_LOG"
  return (name?.bind Threshold.ofName?).getD .standard

/-- Runs the command with these arguments on the files of the system. -/
def perform (arguments : List String) : IO UInt32 := do
  match Request.ofArguments arguments with
  | .error misuse =>
    IO.eprintln ("error: " ++ misuse.message ++ "\n\n" ++ helpText)
    return 2
  | .ok .version =>
    IO.print versionText
    return 0
  | .ok .help =>
    IO.print helpText
    return 0
  | .ok (.export options) =>
    let threshold ← thresholdOfEnvironment
    let source ← readSource options.input
    (options.plan source).perform threshold

end ScriptFacts.Command

def main (arguments : List String) : IO UInt32 :=
  ScriptFacts.Command.perform arguments
