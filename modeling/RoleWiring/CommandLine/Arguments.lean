import RoleWiring.Configuration

/-!
# Arguments

What a command line asks for. A command is followed by switches in any order. A
switch that takes a value has it in the next argument, which then must not look
like a switch, or in its own argument: `--role A=b.C`, `--role=A=b.C`, `-o f`,
`-of` and `-o=f` are all read. A lone `--` may end the line. Nothing may be given
twice but roots, roles and selections.

Reading is in two steps: the arguments give a list of switches with their values,
and the list gives the request. A request for help ends the list.
-/

namespace RoleWiring

/-- The commands of the program. -/
inductive CommandName where
  | init
  | scan
  | list
  | emit
deriving DecidableEq, Repr

/-- The switches that a command can be given. -/
inductive Switch where
  | config
  | classpath
  | role
  | select
  | output
  | concreteOnly
  | json
  | force
  | help
deriving DecidableEq, Repr

/-- Why a command line cannot be understood. -/
inductive UsageError where
  /-- no command is given -/
  | noCommand
  /-- there is no such command -/
  | unknownCommand (text : String)
  /-- an argument that is neither a known switch nor the value of one -/
  | unexpected (argument : String)
  /-- the switch needs a value -/
  | noValue (switch : Switch)
  /-- the switch takes no value -/
  | needlessValue (switch : Switch)
  /-- the switch is given more than once -/
  | repeated (switch : Switch)
  /-- the value of the switch is not of the form that it needs -/
  | badValue (switch : Switch) (text : String)
deriving DecidableEq, Repr

/-- Where the configuration comes from, and what overrides parts of it. -/
structure SourceOptions where
  /-- the file of the configuration -/
  config : Path
  /-- the roots that replace those of the configuration, if there are any -/
  classPath : List Path
  /-- the roles that are added -/
  roles : List Role
deriving DecidableEq, Repr

/-- A command with all that it needs. -/
inductive Command where
  /-- write the default configuration, over an existing file only if forced -/
  | init (output : Path) (force : Bool)
  /-- show all classes -/
  | scan (source : SourceOptions)
  /-- show the implementations of all roles -/
  | list (source : SourceOptions) (concreteOnly json : Bool)
  /-- choose an implementation for every role and write the service file -/
  | emit (source : SourceOptions) (selections : List Role) (output : Option Path)
deriving DecidableEq, Repr

/-- What a command line asks for. -/
inductive Request where
  /-- carry out a command -/
  | run (command : Command)
  /-- show the version -/
  | version
  /-- show how the program, or one of its commands, is used -/
  | help (command : Option CommandName)
deriving DecidableEq, Repr

/-! ## Names -/

namespace CommandName

/-- All commands. -/
def all : List CommandName :=
  [init, scan, list, emit]

/-- The name of a command. -/
def text : CommandName → String
  | init => "init"
  | scan => "scan"
  | list => "list"
  | emit => "emit"

/-- The command of this name. -/
def ofText? (s : String) : Option CommandName :=
  all.find? fun c => c.text == s

/-- The switches that a command accepts. -/
def switches : CommandName → List Switch
  | init => [.output, .force, .help]
  | scan => [.config, .classpath, .role, .help]
  | list => [.config, .classpath, .role, .concreteOnly, .json, .help]
  | emit => [.config, .classpath, .role, .select, .output, .help]

end CommandName

namespace Switch

/-- The long name of a switch. -/
def long : Switch → String
  | config => "config"
  | classpath => "classpath"
  | role => "role"
  | select => "select"
  | output => "output"
  | concreteOnly => "concrete-only"
  | json => "json"
  | force => "force"
  | help => "help"

/-- The letter for a switch, if it has one. -/
def letter? : Switch → Option Char
  | config => some 'c'
  | output => some 'o'
  | help => some 'h'
  | _ => none

/-- The switch is followed by a value. -/
def takesValue : Switch → Bool
  | config | classpath | role | select | output => true
  | concreteOnly | json | force | help => false

end Switch

/-! ## From arguments to switches -/

/-- A switch as it was given, with its value if it takes one. -/
structure Given where
  /-- the switch -/
  switch : Switch
  /-- the value, empty for a switch that takes none -/
  value : String
deriving DecidableEq, Repr

/-- An argument that begins like a switch: a dash and more. -/
def looksLikeSwitch (argument : String) : Bool :=
  match argument.toList with
  | '-' :: _ :: _ => true
  | _ => false

/-- One argument on its own. -/
inductive Word where
  /-- two dashes: no more switches -/
  | endOfSwitches
  /-- a switch, and the value written in the same argument -/
  | switch (s : Switch) (attached : Option String)
  /-- anything else -/
  | other
deriving DecidableEq, Repr

/-- The value after a switch letter, where an equals sign may come first. -/
def attachedToLetter : List Char → Option String
  | [] => none
  | '=' :: value => some (String.ofList value)
  | value => some (String.ofList value)

/-- What an argument says to a command that accepts these switches. -/
def Word.ofArgument (accepted : List Switch) (argument : String) : Word :=
  match argument.toList with
  | ['-', '-'] => .endOfSwitches
  | '-' :: '-' :: body =>
    let (name, attached) :=
      match splitAssignment? body with
      | some (name, value) => (name, some (String.ofList value))
      | none => (body, none)
    match accepted.find? fun s => s.long.toList == name with
    | some s => .switch s attached
    | none => .other
  | '-' :: letter :: body =>
    match accepted.find? fun s => s.letter? == some letter with
    | some s => if s.takesValue then .switch s (attachedToLetter body) else .switch s none
    | none => .other
  | _ => .other

/-- The switches that the arguments give, up to a request for help. -/
def readSwitches (accepted : List Switch) : List String → Except UsageError (List Given)
  | [] => .ok []
  | argument :: rest =>
    match Word.ofArgument accepted argument with
    | .other => .error (.unexpected argument)
    | .endOfSwitches =>
      match rest with
      | [] => .ok []
      | next :: _ => .error (.unexpected next)
    | .switch s attached =>
      if s.takesValue then
        match attached, rest with
        | some value, rest => (readSwitches accepted rest).map (⟨s, value⟩ :: ·)
        | none, value :: rest =>
          if looksLikeSwitch value then .error (.noValue s)
          else (readSwitches accepted rest).map (⟨s, value⟩ :: ·)
        | none, [] => .error (.noValue s)
      else
        match attached with
        | some _ => .error (.needlessValue s)
        | none =>
          if s = .help then .ok [⟨s, ""⟩]
          else (readSwitches accepted rest).map (⟨s, ""⟩ :: ·)

/-! ## From switches to requests -/

/-- The values given for a switch, in order. -/
def values (given : List Given) (s : Switch) : List String :=
  (given.filter fun g => g.switch == s).map Given.value

/-- The value given for a switch, which may be given once at most. -/
def atMostOnce (given : List Given) (s : Switch) : Except UsageError (Option String) :=
  match values given s with
  | [] => .ok none
  | [value] => .ok (some value)
  | _ => .error (.repeated s)

/-- Whether a switch is given; it may be given once at most. -/
def isGiven (given : List Given) (s : Switch) : Except UsageError Bool :=
  (atMostOnce given s).map Option.isSome

/-- The path that is the value of a switch. No path is empty. -/
def pathValue (s : Switch) (value : String) : Except UsageError Path :=
  if value = "" then .error (.badValue s value) else .ok (.ofString value)

/-- The role or selection that is the value of a switch. -/
def roleValue (s : Switch) (value : String) : Except UsageError Role :=
  match Role.ofAssignment value with
  | .ok role => .ok role
  | .error _ => .error (.badValue s value)

/-- The path given for a switch, which may be given once at most. -/
def pathOption (given : List Given) (s : Switch) : Except UsageError (Option Path) := do
  match ← atMostOnce given s with
  | none => return none
  | some value => return some (← pathValue s value)

/-- The options for the source of the configuration. -/
def SourceOptions.ofGiven (given : List Given) : Except UsageError SourceOptions := do
  let config ← pathOption given .config
  let classPath ← (values given .classpath).mapM (pathValue .classpath)
  let roles ← (values given .role).mapM (roleValue .role)
  return { config := config.getD Configuration.presetFile, classPath, roles }

/-- The command with the given switches. -/
def Command.ofGiven (name : CommandName) (given : List Given) : Except UsageError Command :=
  match name with
  | .init => do
    let output ← pathOption given .output
    let force ← isGiven given .force
    return .init (output.getD Configuration.presetFile) force
  | .scan => do
    return .scan (← SourceOptions.ofGiven given)
  | .list => do
    let source ← SourceOptions.ofGiven given
    let concreteOnly ← isGiven given .concreteOnly
    let json ← isGiven given .json
    return .list source concreteOnly json
  | .emit => do
    let source ← SourceOptions.ofGiven given
    let selections ← (values given .select).mapM (roleValue .select)
    let output ← pathOption given .output
    return .emit source selections output

/-- The request that the arguments after the name of a command make. -/
def Request.ofCommand (name : CommandName) (arguments : List String) :
    Except UsageError Request := do
  let given ← readSwitches name.switches arguments
  let command ← Command.ofGiven name given
  return if values given .help = [] then .run command else .help (some name)

/-- The request for help with what the arguments name. -/
def Request.ofHelp : List String → Except UsageError Request
  | [] => .ok (.help none)
  | ["help"] => .ok (.help none)
  | [name] =>
    match CommandName.ofText? name with
    | some command => .ok (.help (some command))
    | none => .error (.unknownCommand name)
  | name :: argument :: _ =>
    match CommandName.ofText? name with
    | some _ => .error (.unexpected argument)
    | none => .error (.unknownCommand name)

/-- The request that the arguments of the program make. -/
def Request.ofArguments : List String → Except UsageError Request
  | [] => .error .noCommand
  | first :: rest =>
    match first.toList with
    | '-' :: 'V' :: _ => .ok .version
    | '-' :: 'h' :: _ => .ok (.help none)
    | _ =>
      if first = "--version" then .ok .version
      else if first = "--help" then .ok (.help none)
      else if first = "help" then Request.ofHelp rest
      else if looksLikeSwitch first then .error (.unexpected first)
      else
        match CommandName.ofText? first with
        | some name => Request.ofCommand name rest
        | none => .error (.unknownCommand first)

end RoleWiring
