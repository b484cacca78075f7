/-!
# Arguments

`lostuser watch` and `lostuser check`, both with an optional path of the configuration, and `lostuser help`.

- `Request`: what is to be done; `UsageError`: why the arguments ask for nothing that can be done, asking for
  help or the version included;
- `parse`: arguments are looked at from left to right, and the first one that is out of place decides. The value
  of an option that is given as an argument of its own is looked at together with the next option, or at the end.
-/

namespace ReplicaWatch.CommandLine

/-- What is to be done, with the path of the configuration. -/
inductive Request
  /-- Report resources that lose their user. -/
  | watch (config : String)
  /-- Report how every resource stands. -/
  | check (config : String)
deriving DecidableEq, Repr

/-- Why nothing is to be done. -/
inductive UsageError
  | help
  | version
  | nothing
  | unknownCommand
  | unknownArgument
  | noValue
  | repeated
  /-- A value is given that belongs nowhere. -/
  | extraValue
deriving DecidableEq, Repr

/-- The exit code of the program: asking for help or the version is no failure. -/
def UsageError.exitCode : UsageError → Nat
  | help => 0
  | version => 0
  | _ => 2

/-- Where the configuration is looked for unless a path is given. -/
def defaultConfig : String := "./lostuser.json"

def commands : List String := ["watch", "check", "help"]

/-- The name of a long option and the value attached to it. -/
def longOption? (argument : String) : Option (List Char × Option (List Char)) :=
  match argument.toList with
  | '-' :: '-' :: c :: rest =>
    let name := (c :: rest).takeWhile (· != '=')
    match (c :: rest).dropWhile (· != '=') with
    | [] => some (name, none)
    | _ :: value => some (name, some value)
  | _ => none

/-- The first letter of a group of short options. -/
def shortOption? (argument : String) : Option Char :=
  match argument.toList with
  | '-' :: c :: _ => if c = '-' then none else some c
  | _ => none

/-- An option whose value has not been looked at. -/
inductive Pending
  | none
  | awaiting
  | value (path : String)

/-- The option for the path is given with a value. -/
def give (given : Option String) (path : String) : Except UsageError (Option String) :=
  if given.isSome then .error .repeated
  else if path.isEmpty then .error .noValue
  else .ok (some path)

/-- Looks at the value of an option. -/
def resolve (given : Option String) : Pending → Except UsageError (Option String)
  | .none => .ok given
  | .awaiting => .error .noValue
  | .value path => give given path

/-- The path of the configuration, from the arguments after a command. -/
def configPath (given : Option String) (pending : Pending) : List String → Except UsageError String
  | [] => do return (← resolve given pending).getD defaultConfig
  | argument :: rest =>
    if argument = "--" then
      match rest with
      | [] => do return (← resolve given pending).getD defaultConfig
      | _ :: _ => .error .unknownArgument
    else
      match longOption? argument with
      | some (name, attached) =>
        if name = "help".toList then
          match attached with
          | some _ => .error .extraValue
          | none => do
            let _ ← resolve given pending
            .error .help
        else if name = "config".toList then do
          let given ← resolve given pending
          match attached with
          | some path => do
            let given ← give given (String.ofList path)
            configPath given .none rest
          | none => configPath given .awaiting rest
        else .error .unknownArgument
      | none =>
        match shortOption? argument with
        | some c =>
          if c = 'h' then do
            let _ ← resolve given pending
            .error .help
          else .error .unknownArgument
        | none =>
          match pending with
          | .awaiting => configPath given (.value argument) rest
          | _ => .error .unknownArgument

/-- What help is asked for: on the program or on one of its commands. -/
def helpOn : List String → UsageError
  | [] => .help
  | [command] => if commands.contains command then .help else .unknownCommand
  | _ => .unknownCommand

/-- What the arguments of the program ask for. -/
def parse : List String → Except UsageError Request
  | [] => .error .nothing
  | argument :: rest =>
    if argument = "watch" then (configPath none .none rest).map .watch
    else if argument = "check" then (configPath none .none rest).map .check
    else if argument = "help" then .error (helpOn rest)
    else if argument = "--" then
      match rest with
      | [] => .error .nothing
      | command :: _ => .error (if commands.contains command then .unknownArgument else .unknownCommand)
    else
      match longOption? argument, shortOption? argument with
      | some (name, attached), _ =>
        if name = "help".toList ∨ name = "version".toList then
          if attached.isSome then .error .extraValue
          else .error (if name = "help".toList then .help else .version)
        else .error .unknownArgument
      | none, some c => .error (if c = 'h' then .help else if c = 'V' then .version else .unknownArgument)
      | none, none => .error .unknownCommand

end ReplicaWatch.CommandLine
