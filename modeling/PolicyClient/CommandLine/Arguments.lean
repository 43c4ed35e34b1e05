/-
The arguments of the program. The options for server, settings and silence may stand at any command;
of several values the one furthest down the line of commands counts.
-/
import PolicyClient.CommandLine.Grammar

namespace PolicyClient.CommandLine

/-! ## The grammar -/

/-- The option that asks for help. -/
def helpChoice : Choice := ⟨"help", some 'h', .help⟩

/-- The options that every command has. -/
def shared : List Choice :=
  [⟨"url", some 'u', .value true⟩, ⟨"config", some 'c', .value false⟩,
    ⟨"quiet", some 'q', .switch⟩, helpChoice]

/-- A command with positional values and options of its own. -/
def leaf (name : String) (positionals : List Positional) (own : List Choice) : Grammar :=
  .node name (own ++ shared) positionals []

/-- An identifier of a policy. -/
def idPosition : Positional := ⟨"id", true⟩

/-- The path of a document. -/
def pathPosition : Positional := ⟨"path", true⟩

/-- The name of a file, which is never empty. -/
def filePosition : Positional := ⟨"file", false⟩

/-- The text of a query. -/
def queryPosition : Positional := ⟨"query", true⟩

/-- The commands of the program. -/
def program : Grammar :=
  .node "opa-cli" (⟨"version", some 'V', .version⟩ :: shared) []
    [.node "policy" shared []
        [leaf "list" [] [], leaf "get" [idPosition] [],
          leaf "put" [idPosition, filePosition] [], leaf "delete" [idPosition] []],
      .node "data" shared []
        [leaf "get" [pathPosition] [], leaf "put" [pathPosition, filePosition] []],
      leaf "query" [queryPosition] [],
      leaf "compile" [queryPosition]
        [⟨"input", none, .value true⟩, ⟨"unknown", none, .values⟩, ⟨"bind", none, .value true⟩]]

/-! ## Commands -/

/-- What the program is to do. -/
inductive Command
  | listPolicies
  | getPolicy (id : String)
  | putPolicy (id file : String)
  | deletePolicy (id : String)
  | getData (path : String)
  | putData (path file : String)
  | query (query : String)
  | compile (query : String) (input bind : Option String) (unknowns : List String)
  deriving DecidableEq, Repr

/-- The arguments of the program. -/
structure Arguments where
  url : Option String
  config : Option String
  quiet : Bool
  command : Command
  deriving DecidableEq, Repr

namespace Invocation

/-- The values given under a name. -/
def values (i : Invocation) (name : String) : List String :=
  (i.given.filter (·.1 == name)).flatMap (·.2)

/-- The first value given under a name. -/
def value? (i : Invocation) (name : String) : Option String :=
  (i.values name).head?

/-- The value of a position that has to be filled. -/
def required (i : Invocation) (position : Positional) : Except UsageFault String :=
  match i.value? position.name with
  | some value => .ok value
  | none => .error .missingArgument

/-- The command with a name and a parent, given its values. -/
def toCommand (parent : String) (i : Invocation) : Except UsageFault Command :=
  match parent, i.command with
  | "policy", "list" => .ok .listPolicies
  | "policy", "get" => (i.required idPosition).map .getPolicy
  | "policy", "put" => do return .putPolicy (← i.required idPosition) (← i.required filePosition)
  | "policy", "delete" => (i.required idPosition).map .deletePolicy
  | "data", "get" => (i.required pathPosition).map .getData
  | "data", "put" => do return .putData (← i.required pathPosition) (← i.required filePosition)
  | _, "query" => (i.required queryPosition).map .query
  | _, "compile" => do
    return .compile (← i.required queryPosition) (i.value? "input") (i.value? "bind")
      (i.values "unknown")
  | _, _ => .error .unknownCommand

end Invocation

namespace Arguments

/-- The value of an option that counts: the one furthest down. -/
def lastValue? (invocations : List Invocation) (name : String) : Option String :=
  invocations.reverse.findSome? (·.value? name)

/-- Reads the arguments; `presetUrl` is the server that the environment names. -/
def ofLine (presetUrl : Option String) (line : List String) : Except UsageFault Arguments := do
  let preset := if presetUrl.isSome then ["url"] else []
  let invocations ← read preset program {} line
  let parent := match invocations.reverse with
    | _ :: parent :: _ => parent.command
    | _ => ""
  let command ← match invocations.getLast? with
    | some last => last.toCommand parent
    | none => throw .missingCommand
  return {
    url := (lastValue? invocations "url").or presetUrl
    config := lastValue? invocations "config"
    quiet := (lastValue? invocations "quiet").isSome
    command }

/-- The files that the arguments name. -/
def files (a : Arguments) : List String :=
  a.config.toList ++
    match a.command with
    | .putPolicy _ file => [file]
    | .putData _ file => [file]
    | _ => []

end Arguments
end PolicyClient.CommandLine
