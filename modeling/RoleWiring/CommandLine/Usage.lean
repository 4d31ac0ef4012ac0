import RoleWiring.CommandLine.Arguments

/-!
# Usage

The texts that say how the program is used, and what is wrong with a command line
that cannot be understood. What the program, its commands and their switches are for
is said in the program's own words. How a help text is laid out, and the words for a
command line that cannot be understood, are a matter of the parser of the arguments;
they are only sketched here.
-/

namespace RoleWiring

/-- The name of the program. -/
def programName : String :=
  "svcwire"

/-- The version of the program. -/
def programVersion : String :=
  "0.1.0"

/-- What the program does. -/
def programDescription : String :=
  "svcwire scans directories of compiled class files, works out which concrete types implement "
    ++ "each configured role by walking their supertypes, and writes the selected implementation "
    ++ "per role as a service configuration file. No project code is loaded or executed."

namespace CommandName

/-- What a command does, in short. -/
def purpose : CommandName → String
  | init => "Write a default configuration file"
  | scan => "List every class found on the classpath"
  | list => "Show the implementations found for each role"
  | emit => "Choose one implementation per role and write the service file"

/-- What a command does. -/
def description : CommandName → String
  | init => init.purpose
  | scan => scan.purpose
  | list =>
    "Indexes the classpath against the configured roles and prints, per role, every type whose "
      ++ "supertype closure contains the role type. Roles with no implementation are listed as "
      ++ "empty. Warnings go to stderr."
  | emit =>
    "Resolves exactly one implementation per role. A role with a single instantiable candidate "
      ++ "is chosen automatically; otherwise pick one with --select ROLE=FQN. Interfaces and "
      ++ "abstract classes are never written. The result is written as JSON keyed by role name."

end CommandName

namespace Switch

/-- What the value of a switch is. -/
def valueName? : Switch → Option String
  | config => some "CONFIG"
  | output => some "OUTPUT"
  | classpath => some "DIR"
  | role => some "NAME=FQN"
  | select => some "ROLE=FQN"
  | concreteOnly | json | force | help => none

/-- What a switch of a command is for. -/
def purpose (command : CommandName) : Switch → String
  | config => "Configuration file; defaults apply when it does not exist"
  | classpath => "Classpath root, repeatable; replaces the configured classpath"
  | role => "Add or override a role, repeatable"
  | select => "Pick the implementation for a role, e.g. Parser=com.example.JsonParser"
  | output =>
    if command = .init then "Where to write the configuration"
    else "Output path, overriding the configuration"
  | concreteOnly => "Hide interfaces, abstract classes, enums and annotations"
  | json => "Print the result as JSON instead of a table"
  | force => "Overwrite an existing file"
  | help => "Print help"

/-- How a switch is written. -/
def spelling (s : Switch) : String :=
  let letter := match s.letter? with
    | some c => s!"-{c}, "
    | none => "    "
  let value := match s.valueName? with
    | some v => s!" <{v}>"
    | none => ""
  s!"{letter}--{s.long}{value}"

end Switch

/-- A name and what it stands for, as a line of a list. -/
def helpLine (name purpose : String) : String :=
  "  " ++ name ++ String.ofList (List.replicate (28 - name.length) ' ') ++ " " ++ purpose ++ "\n"

/-- How the program, or one of its commands, is used. -/
def helpText : Option CommandName → String
  | none =>
    s!"{programDescription}\n\nUsage: {programName} <COMMAND>\n\nCommands:\n"
      ++ String.join (CommandName.all.map fun c => helpLine c.text c.purpose)
  | some c =>
    s!"{c.description}\n\nUsage: {programName} {c.text} [OPTIONS]\n\nOptions:\n"
      ++ String.join (c.switches.map fun s => helpLine s.spelling (s.purpose c))

/-- The words for a command line that cannot be understood. -/
def UsageError.message : UsageError → String
  | noCommand => "a command is needed"
  | unknownCommand s => s!"there is no command '{s}'"
  | unexpected s => s!"unexpected argument '{s}'"
  | noValue s => s!"--{s.long} needs a value"
  | needlessValue s => s!"--{s.long} takes no value"
  | repeated s => s!"--{s.long} is given more than once"
  | badValue s text => s!"--{s.long} cannot have the value '{text}'"

end RoleWiring
