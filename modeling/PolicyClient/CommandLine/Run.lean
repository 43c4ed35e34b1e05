/-
Running a command. What it reads from files and from its arguments is read before the server is
called, and a command calls the server once. What it has printed by the time it fails stays printed.
-/
import PolicyClient.Api.Compilation
import PolicyClient.Api.Data
import PolicyClient.Api.Policies
import PolicyClient.Api.Queries
import PolicyClient.CommandLine.Arguments
import PolicyClient.Evaluation.Decision

namespace PolicyClient.CommandLine

/-! ## Files -/

/-- Why a file has no text. -/
inductive FileFault
  | missing
  | directory
  | notDirectory
  | notText
  | other (reason : String)
  deriving DecidableEq, Repr

/-- The wording of a fault. -/
def FileFault.message : FileFault → String
  | .missing => "No such file or directory (os error 2)"
  | .directory => "Is a directory (os error 21)"
  | .notDirectory => "Not a directory (os error 20)"
  | .notText => "stream did not contain valid UTF-8"
  | .other reason => reason

/-- The files that a command may read. -/
abbrev Files := String → Except FileFault Bytes

/-- The text of a file. -/
def Files.text (files : Files) (path : String) : Except FileFault String := do
  match Utf8.text? (← files path) with
  | some text => return text
  | none => throw .notText

/-! ## Failures -/

/-- Why a command fails. -/
inductive Failure
  | settings (path : String) (error : ClientError)
  | client (error : ClientError)
  | file (path : String) (fault : FileFault)
  | notDocument (source : String) (error : Document.ReadError)
  | bindNotObject
  | undefined (path : String)
  | evaluation (error : EvalError)

/-- The failure in words, what was tried before what went wrong. -/
def Failure.chain : Failure → List String
  | .settings path error => s!"loading {path}" :: error.chain
  | .client error => error.chain
  | .file path fault => [s!"reading {path}", fault.message]
  | .notDocument source error => [s!"{source} is not valid JSON", error.message]
  | .bindNotObject => ["--bind must be a JSON object"]
  | .undefined path => [s!"document {path} is undefined"]
  | .evaluation error => [error.message]

/-- What a command printed, and why it failed if it did. -/
structure Report where
  output : String
  failure : Option Failure

namespace Report

/-- A command that printed its result. -/
def success (output : String) : Report := ⟨output, none⟩

/-- A command that failed before it printed anything. -/
def failed (failure : Failure) : Report := ⟨"", some failure⟩

end Report

/-! ## The client -/

/-- The settings in a file. A file that cannot be read counts as bad settings. -/
def loadSettings (files : Files) (path : String) (toAscii : Url.ToAscii := Url.lowerDomain)
    (read : Settings.Reader := Settings.ofText) : Except ClientError Settings :=
  match files.text path with
  | .error fault => .error (.settings (.unreadable path fault.message))
  | .ok text => Settings.load text toAscii read

/-- The client that the arguments ask for. -/
def Arguments.client (a : Arguments) (files : Files) (toAscii : Url.ToAscii := Url.lowerDomain)
    (read : Settings.Reader := Settings.ofText) : Except Failure Client := do
  let settings ← match a.config with
    | none => pure {}
    | some path => (loadSettings files path toAscii read).mapError (.settings path)
  let logging := if a.quiet then some LogSpecification.none else none
  (ClientOptions.build { settings, url := a.url, logging } toAscii).mapError .client

/-! ## Arguments in JSON -/

/-- The document in a text, which comes from a source with a name. -/
def readJson (source text : String) : Except Failure Document :=
  (Document.ofText text).mapError (.notDocument source)

/-- The document in a file. -/
def readFile (files : Files) (path : String) : Except Failure Document := do
  readJson path (← (files.text path).mapError (.file path))

/-- The bindings in a text. -/
def readBindings (text : String) : Except Failure Bindings := do
  match ← readJson "--bind" text with
  | .object members => return ⟨members⟩
  | _ => throw .bindNotObject

/-! ## Reports -/

/-- A text on a line of its own. -/
def line (text : String) : String := text ++ "\n"

/-- The document at a path, laid out for readers. -/
def reportData (path : String) : Option Document → Report
  | some d => .success (line d.printIndented)
  | none => .failed (.undefined path)

/-- The decision of residual queries, and the answer under bindings if there are any. -/
def reportResidue (bindings : Option Bindings) (r : Residue) : Report :=
  let decision := Decision.of r.queries
  let shown := line (match decision with
    | .conditional queries => queries.render
    | .unconditional => "true"
    | .unsatisfiable => "false")
  match bindings with
  | none => .success shown
  | some b =>
    match decision.evaluate b with
    | .ok answer => .success (shown ++ line s!"decision: {answer}")
    | .error e => ⟨shown, some (.evaluation e)⟩

/-! ## Commands -/

/-- The call of a command, with the report of its result. -/
def Command.call (files : Files) : Command → Except Failure (Call Report)
  | .listPolicies =>
    .ok (Policy.list.map fun policies => .success (String.join (policies.map fun p => line p.id)))
  | .getPolicy id => .ok ((Policy.get id).map fun p => .success p.raw)
  | .putPolicy id file => do
    let raw ← (files.text file).mapError (.file file)
    return (Policy.put id raw).map fun _ => .success ""
  | .deletePolicy id => .ok ((Policy.delete id).map fun _ => .success "")
  | .getData path => .ok ((Data.get Form.document path).map (reportData path))
  | .putData path file => do
    let d ← readFile files file
    return (Data.put path d).map fun _ => .success ""
  | .query text =>
    .ok ((AdHoc.ask text).map fun rows =>
      .success (String.join (rows.map fun row => line (Document.object row).print)))
  | .compile text input bind unknowns => do
    let input ← input.mapM (readJson "--input")
    let bindings ← bind.mapM readBindings
    return (Compilation.call ⟨text, input, unknowns⟩).map (reportResidue bindings)

/-- The report of a call with its outcome. -/
def Report.ofOutcome : Except ClientError Report → Report
  | .ok report => report
  | .error e => .failed (.client e)

/-- The report of a command over a network given in advance, and the network after it. -/
def Command.run (c : Client) (files : Files) (command : Command) (s : Script) : Report × Script :=
  match command.call files with
  | .error failure => (.failed failure, s)
  | .ok call => (.ofOutcome (c.run call s).1, (c.run call s).2)

end PolicyClient.CommandLine
