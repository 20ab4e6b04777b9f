/-!
# Parameters of commands

What can be given on a command line: which parameters there are, how they are
written, what values they take, and which commands know them.
-/

namespace Depot.Command

/-- The forms in which reports can be had. -/
inductive Format where
  | text
  | json
deriving DecidableEq, Repr

/-- A format as it is written. -/
def Format.keyword : Format → String
  | .text => "text"
  | .json => "json"

/-- The format that a keyword stands for. -/
def Format.ofKeyword? (keyword : String) : Option Format :=
  [Format.text, .json].find? (·.keyword = keyword)

/-- Why a text is no key with a value. -/
inductive AssignmentFault where
  | noSign (text : String)
  | noKey (text : String)
deriving DecidableEq, Repr

/-- The wording of a fault. -/
def AssignmentFault.message : AssignmentFault → String
  | .noSign text => "expected KEY=VALUE, got \x60" ++ text ++ "\x60"
  | .noKey text => "empty key in \x60" ++ text ++ "\x60"

/-- Splits a text at its first equals sign. -/
def splitAtSign : List Char → Option (List Char × List Char)
  | [] => none
  | '=' :: rest => some ([], rest)
  | character :: rest =>
    (splitAtSign rest).map fun (before, after) => (character :: before, after)

/-- The key and the value that a text gives, divided at its first equals sign. -/
def assignment (text : String) : Except AssignmentFault (String × String) :=
  match splitAtSign text.toList with
  | none => .error (.noSign text)
  | some ([], _) => .error (.noKey text)
  | some (key, value) => .ok (String.ofList key, String.ofList value)

/-- What values a parameter takes. -/
inductive Kind where
  | flag
  | text
  /-- Any text but the empty one. -/
  | path
  | format
  | assignment
deriving DecidableEq, Repr

/-- The commands. -/
inductive Name where
  | init
  | put
  | get
  | query
  | remove
  | repair
deriving DecidableEq, Repr

/-- All commands. -/
def Name.all : List Name := [.init, .put, .get, .query, .remove, .repair]

/-- A command as it is written. -/
def Name.word : Name → String
  | .init => "init"
  | .put => "put"
  | .get => "get"
  | .query => "query"
  | .remove => "rm"
  | .repair => "repair"

/-- The command that a word stands for. -/
def Name.ofWord? (word : String) : Option Name := all.find? (·.word = word)

/-- Something that can be given on a command line. -/
inductive Parameter where
  | directory
  | settings
  | bucket
  | verbose
  | format
  | file
  | name
  | owner
  | contentType
  | metadata
  | identity
  | output
  | criterion
  | all
  | delete
deriving DecidableEq, Repr

namespace Parameter

/-- The word after two hyphens that announces a parameter; the file has none. -/
def long? : Parameter → Option String
  | .directory => some "dir"
  | .settings => some "config"
  | .bucket => some "bucket"
  | .verbose => some "verbose"
  | .format => some "format"
  | .file => none
  | .name => some "name"
  | .owner => some "owner"
  | .contentType => some "content-type"
  | .metadata => some "meta"
  | .identity => some "id"
  | .output => some "out"
  | .criterion => some "param"
  | .all => some "and"
  | .delete => some "delete"

/-- The letter after one hyphen that announces a parameter, for the few that have
one. -/
def short? : Parameter → Option Char
  | .verbose => some 'v'
  | .output => some 'o'
  | _ => none

/-- What values a parameter takes. -/
def kind : Parameter → Kind
  | .verbose | .all | .delete => .flag
  | .name | .owner | .contentType | .identity => .text
  | .directory | .settings | .bucket | .file | .output => .path
  | .format => .format
  | .metadata | .criterion => .assignment

/-- Whether a parameter may be given more than once. -/
def repeats : Parameter → Bool
  | .metadata | .criterion => true
  | _ => false

/-- The parameters that may stand before and after every command. -/
def shared : List Parameter := [.directory, .settings, .bucket, .verbose, .format]

/-- The further parameters of a command. -/
def own : Name → List Parameter
  | .init | .repair => []
  | .put => [.file, .name, .owner, .contentType, .metadata]
  | .get => [.identity, .name, .owner, .output]
  | .query => [.owner, .identity, .name, .criterion, .all, .delete]
  | .remove => [.identity, .name, .owner]

end Parameter

end Depot.Command
