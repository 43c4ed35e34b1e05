/-
The program. It reads its arguments and the files that they name, runs the command and prints the
report. There is no network behind it: every request is refused as if no server could be reached.
-/
import PolicyClient.CommandLine.Run

namespace PolicyClient.CommandLine

/-- The version that the program names. -/
def programVersion : String := "0.1.0"

/-- The fault that an error of the system stands for. -/
def FileFault.ofError : IO.Error → FileFault
  | .noFileOrDirectory .. => .missing
  | .inappropriateType _ code _ => if code = 21 then .directory else .notDirectory
  | e => .other (toString e)

/-- Reads a file whole. -/
def readBytes (path : String) : IO (Except FileFault Bytes) := do
  try
    return .ok (← IO.FS.readBinFile path).toList
  catch e => return .error (.ofError e)

/-- The files with their contents. -/
def readFiles (paths : List String) : IO Files := do
  let contents ← paths.mapM fun path => return (path, ← readBytes path)
  return fun path => (contents.lookup path).getD (.error .missing)

/-- The answer to a request where no server can be reached. -/
def refuse (r : Request) : Except TransportError Response :=
  .error (.connection ("Cannot connect to " ++ r.url.text))

/-- Runs a command and prints the events for all readers. -/
def execute (c : Client) (files : Files) (command : Command) : IO Report := do
  match command.call files with
  | .error failure => return .failed failure
  | .ok call =>
    for event in c.prepareEvents call.draft do
      if event.severity = .info then IO.eprintln event.text
    match c.prepare call.draft with
    | .error e => return .failed (.client e)
    | .ok request => return .ofOutcome (c.conclude call.decoder (refuse request))

/-- A failure as it is shown, the cause behind what was tried. -/
def showFailure (failure : Failure) : String :=
  match failure.chain with
  | [] => "Error"
  | [only] => "Error: " ++ only
  | first :: [cause] => "Error: " ++ first ++ "\n\nCaused by:\n    " ++ cause
  | first :: causes =>
    "Error: " ++ first ++ "\n\nCaused by:" ++
      String.join (causes.zipIdx.map fun (cause, i) => s!"\n    {i}: {cause}")

/-- Runs the arguments, and gives the exit code. -/
def start (a : Arguments) : IO UInt32 := do
  let files ← readFiles a.files
  let report ← match a.client files with
    | .error failure => pure (.failed failure)
    | .ok client => execute client files a.command
  IO.print report.output
  match report.failure with
  | none => return 0
  | some failure =>
    IO.eprintln (showFailure failure)
    return 1

end PolicyClient.CommandLine

/-- Reads the command line; a line that is refused gives the exit code 2. -/
def main (args : List String) : IO UInt32 := do
  match PolicyClient.CommandLine.Arguments.ofLine (← IO.getEnv "OPA_URL") args with
  | .ok a => PolicyClient.CommandLine.start a
  | .error .help => IO.println "opa-cli [OPTIONS] <COMMAND>" *> return 0
  | .error .version =>
    IO.println ("opa-cli " ++ PolicyClient.CommandLine.programVersion) *> return 0
  | .error _ => IO.eprintln "error: see opa-cli --help" *> return 2
