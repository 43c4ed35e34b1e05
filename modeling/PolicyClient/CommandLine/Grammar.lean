/-
Command lines. A grammar is a tree of commands with options and positional arguments; reading a line
gives what each command on the way down was given. A value is checked only when the next option or
argument begins, or at the end of its command, and the commands further down are read before that.
-/
namespace PolicyClient.CommandLine

/-! ## Grammars -/

/-- What an option is for. -/
inductive Purpose
  | switch
  | value (allowsEmpty : Bool)
  | values
  | help
  | version
  deriving DecidableEq, Repr

/-- An option with its name and perhaps a letter. -/
structure Choice where
  name : String
  letter : Option Char
  purpose : Purpose
  deriving DecidableEq, Repr

/-- A value that is found by its position. -/
structure Positional where
  name : String
  allowsEmpty : Bool
  deriving DecidableEq, Repr

/-- A command: its options, its positional values and the commands below it. A command with others
below it needs one of them. -/
inductive Grammar
  | node (name : String) (choices : List Choice) (positionals : List Positional)
      (commands : List Grammar)

/-- Why a line is refused, or answered without running a command. -/
inductive UsageFault
  | help
  | helpInstead
  | version
  | unknownArgument
  | unknownCommand
  | missingCommand
  | missingArgument
  | badValue
  | repeated
  | needlessValue
  deriving DecidableEq, Repr

namespace Grammar

/-- The name of a command. -/
def name : Grammar → String
  | .node name .. => name

/-- The options of a command. -/
def choices : Grammar → List Choice
  | .node _ choices .. => choices

/-- The positional values of a command. -/
def positionals : Grammar → List Positional
  | .node _ _ positionals _ => positionals

/-- The commands below a command. -/
def commands : Grammar → List Grammar
  | .node _ _ _ commands => commands

/-- The command of a name below a command. -/
def find? (g : Grammar) (name : String) : Option Grammar :=
  g.commands.find? (·.name == name)

end Grammar

/-! ## Progress -/

/-- A value that is being given: the name under which it is kept, and what it may be. -/
structure Slot where
  name : String
  repeatable : Bool
  allowsEmpty : Bool

/-- What a command was given so far. The pending values are not checked yet; `awaiting` says that
one is still due. -/
structure Progress where
  given : List (String × List String) := []
  pending : Option (Slot × List String) := none
  awaiting : Bool := false
  position : Nat := 0
  trailing : Bool := false

namespace Progress

/-- The values of a slot are kept, if it has some and may have them. -/
def keep (p : Progress) (slot : Slot) (values : List String) : Except UsageFault Progress :=
  if values = [] then .error .badValue
  else if !slot.repeatable && p.given.any (·.1 == slot.name) then .error .repeated
  else if !slot.allowsEmpty && values.contains "" then .error .badValue
  else .ok { p with given := p.given ++ [(slot.name, values)] }

/-- The pending values are checked and kept. -/
def settle (p : Progress) : Except UsageFault Progress :=
  match p.pending with
  | none => .ok { p with awaiting := false }
  | some (slot, values) =>
    ({ p with pending := none, awaiting := false } : Progress).keep slot values

/-- A switch is given, or an option that ends the reading. -/
def flip (p : Progress) (choice : Choice) : Except UsageFault Progress := do
  let p ← p.settle
  match choice.purpose with
  | .help => throw .help
  | .version => throw .version
  | _ => p.keep ⟨choice.name, false, true⟩ ["true"]

/-- The slot of an option that takes a value. -/
def slotOf? (choice : Choice) : Option Slot :=
  match choice.purpose with
  | .value allowsEmpty => some ⟨choice.name, false, allowsEmpty⟩
  | .values => some ⟨choice.name, true, true⟩
  | _ => none

/-- A value is attached to its option, or comes with the next argument. -/
def begin (p : Progress) (slot : Slot) (attached : Option String) : Except UsageFault Progress := do
  let p ← p.settle
  match attached with
  | some value => p.keep slot [value]
  | none => return { p with pending := some (slot, []), awaiting := true }

/-- An argument `--name` or `--name=value`. -/
def takeLong (g : Grammar) (p : Progress) (s : List Char) : Except UsageFault Progress :=
  let name := String.ofList (s.takeWhile (· != '='))
  let attached := match s.dropWhile (· != '=') with
    | [] => none
    | _ :: value => some (String.ofList value)
  match g.choices.find? (·.name == name) with
  | none => .error .unknownArgument
  | some choice =>
    match slotOf? choice, attached with
    | some slot, attached => p.begin slot attached
    | none, none => p.flip choice
    | none, some _ => .error .needlessValue

/-- Letters behind a dash. What follows the letter of an option that takes a value is the value; an
equals sign in front of it does not count. -/
def takeLetters (g : Grammar) : Progress → List Char → Except UsageFault Progress
  | p, [] => .ok p
  | p, letter :: rest =>
    match g.choices.find? (·.letter == some letter) with
    | none => .error .unknownArgument
    | some choice =>
      match slotOf? choice with
      | none => do takeLetters g (← p.flip choice) rest
      | some slot =>
        p.begin slot (match rest with
          | [] => none
          | '=' :: value => some (String.ofList value)
          | value => some (String.ofList value))

/-- An argument that is found by its position. -/
def takePositional (g : Grammar) (p : Progress) (arg : String) : Except UsageFault Progress :=
  match g.positionals[p.position]? with
  | some slot => do
    let p ← p.settle
    return { p with
      pending := some (⟨slot.name, false, slot.allowsEmpty⟩, [arg])
      position := p.position + 1 }
  | none =>
    if g.commands.isEmpty || (p.trailing && ((g.find? arg).isSome || arg == "help")) then
      .error .unknownArgument
    else .error .unknownCommand

/-- An argument that names no command. -/
def take (g : Grammar) (p : Progress) (arg : String) : Except UsageFault Progress :=
  match arg.toList with
  | '-' :: '-' :: s => p.takeLong g s
  | '-' :: letter :: s => p.takeLetters g (letter :: s)
  | _ =>
    match p.awaiting, p.pending with
    | true, some (slot, values) =>
      .ok { p with pending := some (slot, values ++ [arg]), awaiting := false }
    | _, _ => p.takePositional g arg

end Progress

/-! ## Lines -/

/-- A command that was named, and what it was given. -/
structure Invocation where
  command : String
  given : List (String × List String)

/-- The end of a command without another one below it. Names in `preset` have a value already. -/
def finish (g : Grammar) (preset : List String) (p : Progress) : Except UsageFault Invocation := do
  let p ← p.settle
  if !g.commands.isEmpty then
    throw (if p.given.isEmpty && preset.isEmpty then .helpInstead else .missingCommand)
  if p.position < g.positionals.length then throw .missingArgument
  return ⟨g.name, p.given⟩

/-- The answer to `help` and the names of commands behind it. -/
def explain (g : Grammar) : List String → UsageFault
  | [] => .help
  | name :: rest =>
    match g.find? name with
    | some inner => explain inner rest
    | none => if name = "help" ∧ !g.commands.isEmpty ∧ rest = [] then .help else .unknownCommand

/-- Reads a line from the command `g` on: what each command named was given, the outermost first. -/
def read (preset : List String) : Grammar → Progress → List String →
    Except UsageFault (List Invocation)
  | g, p, [] => (finish g preset p).map fun last => [last]
  | g, p, arg :: rest =>
    if p.trailing then do read preset g (← p.takePositional g arg) rest
    else if p.awaiting = false ∧ !g.commands.isEmpty ∧ arg = "help" then .error (explain g rest)
    else
      match if p.awaiting then none else g.find? arg with
      | some inner => do
        let deeper ← read preset inner {} rest
        let p ← p.settle
        return ⟨g.name, p.given⟩ :: deeper
      | none =>
        if arg = "--" then read preset g { p with trailing := true } rest
        else do read preset g (← p.take g arg) rest

end PolicyClient.CommandLine
