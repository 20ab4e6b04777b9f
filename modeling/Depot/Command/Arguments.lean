import Depot.Command.Parameter

/-!
# Command lines

How the words of a command line give values to parameters. Words are taken one by
one. A value that stands in a word of its own is put off: it is checked when the
next parameter comes or the words end, so that of two faults the later one may
be the one that is told.
-/

namespace Depot.Command

/-- Why a command line runs no command. -/
inductive Refusal where
  | help
  /-- Nothing is asked for, so help is due. -/
  | nothingGiven
  | version
  | noCommand
  | unknownCommand
  | unknownParameter
  | badValue
  | badAssignment (cause : AssignmentFault)
  | surplusValue
  /-- Two parameters exclude each other, or one is given twice. -/
  | conflict
  | missingParameter
deriving DecidableEq, Repr

/-- The line that tells the version. -/
def versionLine : String := "quiver 0.1.0\n"

/-- The line that tells how commands are written. -/
def usageLine : String :=
  "usage: quiver [--dir DIR] [--config FILE] [--bucket DIR] [--format text|json] [-v] "
    ++ "|".intercalate (Name.all.map Name.word) ++ " ...\n"

namespace Refusal

/-- Whether a refusal is what was asked for. -/
def isRequested : Refusal → Bool
  | .help | .version => true
  | _ => false

/-- What is said instead of running a command. -/
def message : Refusal → String
  | .help | .nothingGiven => usageLine
  | .version => versionLine
  | .noCommand => "error: a command is needed\n" ++ usageLine
  | .unknownCommand => "error: there is no such command\n" ++ usageLine
  | .unknownParameter => "error: there is no such parameter\n" ++ usageLine
  | .badValue => "error: a value is missing or invalid\n" ++ usageLine
  | .badAssignment cause => "error: " ++ cause.message ++ "\n" ++ usageLine
  | .surplusValue => "error: a value is given where none is taken\n" ++ usageLine
  | .conflict => "error: parameters exclude each other or are repeated\n" ++ usageLine
  | .missingParameter => "error: a parameter is missing\n" ++ usageLine

end Refusal

/-- Refuses a value that a parameter does not take. -/
def Parameter.check (parameter : Parameter) (value : String) : Except Refusal Unit :=
  match parameter.kind with
  | .flag | .text => .ok ()
  | .path => if value = "" then .error .badValue else .ok ()
  | .format => if (Format.ofKeyword? value).isSome then .ok () else .error .badValue
  | .assignment => (assignment value).mapError Refusal.badAssignment |>.map fun _ => ()

/-- What the words so far have given. -/
structure Given where
  /-- Parameters with their checked values, in order; a flag has the empty value. -/
  values : List (Parameter × String) := []
  /-- A parameter that has not been checked yet, with its value if it has come. -/
  pending : Option (Parameter × Option String) := none
  /-- Whether every further word stands for itself. -/
  verbatim : Bool := false
deriving DecidableEq

namespace Given

/-- The value of a parameter. -/
def value? (given : Given) (parameter : Parameter) : Option String := given.values.lookup parameter

/-- All values of a parameter, in order. -/
def all (given : Given) (parameter : Parameter) : List String :=
  (given.values.filter (·.1 = parameter)).map Prod.snd

/-- Whether a parameter is given. -/
def has (given : Given) (parameter : Parameter) : Bool := (given.value? parameter).isSome

/-- Checks a parameter and takes it in. -/
def record (given : Given) (parameter : Parameter) (value : Option String) :
    Except Refusal Given := do
  let value ←
    match parameter.kind, value with
    | .flag, _ => pure ""
    | _, some value => pure value
    | _, none => throw .badValue
  if given.has parameter && !parameter.repeats then throw .conflict
  parameter.check value
  return { given with values := given.values ++ [(parameter, value)] }

/-- Checks the parameter that was put off. -/
def settle (given : Given) : Except Refusal Given :=
  match given.pending with
  | none => .ok given
  | some (parameter, value) => { given with pending := none }.record parameter value

/-- Takes in a parameter that is complete in one word. -/
def give (given : Given) (parameter : Parameter) (value : Option String) :
    Except Refusal Given := do
  (← given.settle).record parameter value

/-- Puts a parameter off. -/
def defer (given : Given) (parameter : Parameter) (value : Option String) :
    Except Refusal Given := do
  return { (← given.settle) with pending := some (parameter, value) }

/-- Whether the next word may be the value of the parameter that was put off. -/
def isAwaiting (given : Given) : Bool := given.pending.any (·.2.isNone)

/-- Whether a parameter is given or put off. -/
def isTaken (given : Given) (parameter : Parameter) : Bool :=
  given.has parameter || given.pending.any (·.1 = parameter)

end Given

/-- What can stand where. -/
structure Level where
  parameters : List Parameter
  /-- Whether a command may follow, and the version may be asked for. -/
  isOuter : Bool

/-- Before a command. -/
def Level.outer : Level := ⟨Parameter.shared, true⟩

/-- After a command. -/
def Level.inner (name : Name) : Level := ⟨Parameter.shared ++ Parameter.own name, false⟩

/-- A word that ends a level. -/
inductive Verb where
  | help
  | run (name : Name)
deriving DecidableEq

namespace Level

/-- The verb that a word stands for. -/
def verb? (level : Level) (word : String) : Option Verb :=
  if level.isOuter then
    if word = "help" then some .help else (Name.ofWord? word).map Verb.run
  else none

/-- Answers a request for something other than a command. -/
def answer (given : Given) (request : Refusal) : Except Refusal Given := do
  let _ ← given.settle
  throw request

/-- Takes a parameter that is announced by a word after two hyphens, with a value
if an equals sign follows. -/
def takeLong (level : Level) (given : Given) (word : String) (value : Option String) :
    Except Refusal Given :=
  match level.parameters.find? (·.long? = some word) with
  | some parameter =>
    match parameter.kind, value with
    | .flag, some _ => .error .surplusValue
    | .flag, none => given.give parameter none
    | _, some value => given.give parameter (some value)
    | _, none => given.defer parameter none
  | none =>
    let request? :=
      if word = "help" then some Refusal.help
      else if level.isOuter && word = "version" then some Refusal.version
      else none
    match request?, value with
    | some _, some _ => .error .surplusValue
    | some request, none => answer given request
    | none, _ => .error .unknownParameter

/-- Takes the parameters that are announced by letters after one hyphen. What
follows the letter of a parameter with a value is the value. -/
def takeShort (level : Level) (given : Given) : List Char → Except Refusal Given
  | [] => .ok given
  | letter :: rest =>
    match level.parameters.find? (·.short? = some letter) with
    | some parameter =>
      match parameter.kind, rest with
      | .flag, _ =>
        match given.give parameter none with
        | .ok given => level.takeShort given rest
        | .error refusal => .error refusal
      | _, [] => given.defer parameter none
      | _, '=' :: value => given.give parameter (some (String.ofList value))
      | _, value => given.give parameter (some (String.ofList value))
    | none =>
      if letter = 'h' then answer given .help
      else if level.isOuter && letter = 'V' then answer given .version
      else .error .unknownParameter

/-- Takes a word that stands for itself: the file, where one is due. -/
def takePlain (level : Level) (given : Given) (word : String) : Except Refusal Given :=
  if level.parameters.contains .file && !given.isTaken .file then given.defer .file (some word)
  else if level.isOuter && !(given.verbatim && (level.verb? word).isSome) then
    .error .unknownCommand
  else .error .unknownParameter

/-- Takes a word that is no verb. -/
def take (level : Level) (given : Given) (word : String) : Except Refusal Given :=
  if given.verbatim then level.takePlain given word
  else
    match word.toList with
    | ['-', '-'] => .ok { given with verbatim := true }
    | '-' :: '-' :: characters =>
      match splitAtSign characters with
      | some (name, value) =>
        level.takeLong given (String.ofList name) (some (String.ofList value))
      | none => level.takeLong given (String.ofList characters) none
    | '-' :: letter :: letters => level.takeShort given (letter :: letters)
    | _ =>
      match given.pending with
      | some (parameter, none) => .ok { given with pending := some (parameter, some word) }
      | _ => level.takePlain given word

/-- Takes words up to a verb; gives the verb and the words after it. -/
def takeAll (level : Level) (given : Given) :
    List String → Except Refusal (Given × Option (Verb × List String))
  | [] => .ok (given, none)
  | word :: rest =>
    match if given.verbatim || given.isAwaiting then none else level.verb? word with
    | some verb => .ok (given, some (verb, rest))
    | none =>
      match level.take given word with
      | .error refusal => .error refusal
      | .ok given => level.takeAll given rest

end Level

end Depot.Command
