import Depot.Command.Arguments

/-!
# Invocations

What a command line asks for once all its words are understood.
-/

namespace Depot

/-- How a single object is meant. -/
inductive Command.Target where
  | identity (text : String)
  | named (name owner : String)
deriving DecidableEq, Repr

/-- What is to be stored. -/
structure Command.Storing where
  file : String
  name : String
  owner : String
  contentType : Option String
  metadata : List (String × String)
deriving DecidableEq, Repr

/-- Which objects are meant, and what for. -/
structure Command.Choosing where
  owner : Option String
  identity : Option String
  name : Option String
  criteria : List (String × String)
  all : Bool
  delete : Bool
deriving DecidableEq, Repr

/-- A command with its parameters. -/
inductive Command where
  | init
  | put (storing : Command.Storing)
  | get (target : Command.Target) (output : Option String)
  | query (choosing : Command.Choosing)
  | remove (target : Command.Target)
  | repair
deriving DecidableEq, Repr

namespace Command

/-- A command with all that surrounds it. -/
structure Invocation where
  directory : Option String
  settings : Option String
  bucket : Option String
  verbose : Bool
  format : Format
  command : Command
deriving DecidableEq, Repr

/-- The object that parameters mean. An identity and a name exclude each other,
and a name needs an owner. -/
def target (given : Given) : Except Refusal Target :=
  match given.value? .identity, given.value? .name, given.value? .owner with
  | some _, some _, _ => .error .conflict
  | some identity, none, _ => .ok (.identity identity)
  | none, some name, some owner => .ok (.named name owner)
  | none, _, _ => .error .missingParameter

/-- The keys and values that a parameter is given. -/
def assignments (given : Given) (parameter : Parameter) : List (String × String) :=
  (given.all parameter).filterMap fun text => (assignment text).toOption

/-- What parameters say is to be stored. -/
def storing (given : Given) : Except Refusal Storing :=
  match given.value? .file, given.value? .name, given.value? .owner with
  | some file, some name, some owner =>
    .ok ⟨file, name, owner, given.value? .contentType, assignments given .metadata⟩
  | _, _, _ => .error .missingParameter

/-- Which objects parameters mean. -/
def choosing (given : Given) : Choosing :=
  ⟨given.value? .owner, given.value? .identity, given.value? .name, assignments given .criterion,
    given.has .all, given.has .delete⟩

/-- The command of a name with its parameters. -/
def ofGiven (given : Given) : Name → Except Refusal Command
  | .init => .ok .init
  | .put => (storing given).map Command.put
  | .get => (target given).map fun target => .get target (given.value? .output)
  | .query => .ok (.query (choosing given))
  | .remove => (target given).map Command.remove
  | .repair => .ok .repair

/-- What a request for help is answered with: it may name one command. -/
def helpOn : List String → Refusal
  | [] => .help
  | [word] => if (Level.outer.verb? word).isSome then .help else .unknownCommand
  | _ => .unknownCommand

/-- The invocation that words ask for. Parameters before and after the command
count alike; those after it win. -/
def Invocation.ofWords (words : List String) : Except Refusal Invocation := do
  let (outer, ending) ← Level.outer.takeAll {} words
  match ending with
  | none =>
    let outer ← outer.settle
    throw (if outer.values.isEmpty then .nothingGiven else .noCommand)
  | some (.help, rest) => throw (helpOn rest)
  | some (.run name, rest) =>
    let (inner, _) ← (Level.inner name).takeAll {} rest
    let inner ← inner.settle
    let command ← ofGiven inner name
    let outer ← outer.settle
    let value? (parameter : Parameter) : Option String :=
      inner.value? parameter <|> outer.value? parameter
    return {
      directory := value? .directory
      settings := value? .settings
      bucket := value? .bucket
      verbose := inner.has .verbose || outer.has .verbose
      format := ((value? .format).bind Format.ofKeyword?).getD .text
      command }

end Command

end Depot
