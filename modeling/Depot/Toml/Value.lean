/-!
# TOML values and tables

The values that a document gives to keys, and the rules by which a document may
go on with a table: every table remembers how it came about, and that decides
whether a later header or dotted key may still add to it. Numbers with a
fraction and moments in time carry no payload, since nothing here asks for it.
-/

namespace Depot.Toml

/-- How a table came about. -/
inductive Origin where
  | header
  /-- The header of a table inside it mentions it. -/
  | implied
  | dotted
  /-- It is written between braces, and complete. -/
  | inline
deriving DecidableEq, Repr, Inhabited

/-- A value of a document. -/
inductive Value where
  | text (content : String)
  | integer (value : Int)
  /-- A number with a fraction or an exponent, or one of the special numbers. -/
  | decimal
  | boolean (value : Bool)
  | moment
  | array (items : List Value)
  /-- Tables with one header each, of which the last one is still open; the latest of
  the earlier ones comes first. -/
  | tables (earlier : List (List (String × Value))) (last : List (String × Value))
  | table (origin : Origin) (members : List (String × Value))

/-- The keys and values of a table, in the order of their first mention. -/
abbrev Members := List (String × Value)

/-- A table together with how it came about. -/
structure Table where
  origin : Origin
  members : Members := []

/-- A table as a value. -/
def Table.toValue (table : Table) : Value := .table table.origin table.members

/-- The value of a key. -/
def Members.get? (members : Members) (key : String) : Option Value := members.lookup key

/-- Gives another value to a key, or a first one. -/
def Members.put (key : String) (value : Value) : Members → Members
  | [] => [(key, value)]
  | entry :: rest =>
    if entry.1 = key then (key, value) :: rest else entry :: Members.put key value rest

/-- How a path was written: as a header or as a dotted key. -/
inductive Style where
  | header
  | dotted
deriving DecidableEq, Repr

/-- How a table comes about that a path of this style mentions first. -/
def Style.origin : Style → Origin
  | .header => .implied
  | .dotted => .dotted

/-- Whether a path of this style may lead through a table: never through one in
braces, and a dotted key only through tables without a header. -/
def Style.mayEnter (style : Style) : Origin → Bool
  | .inline => false
  | .header => style = .header
  | .implied | .dotted => true

/-- Changes the table at the end of a path. Missing tables on the way are made;
an array of tables stands for its last one; no other value may be in the way. -/
def Table.alter (style : Style) (change : Table → Option Table) : List String → Table → Option Table
  | [], table => change table
  | key :: path, table =>
    let store (value : Value) : Table :=
      { table with members := Members.put key value table.members }
    match table.members.get? key with
    | none => do
      let inner ← Table.alter style change path ⟨style.origin, []⟩
      return store inner.toValue
    | some (.tables earlier last) => do
      let inner ← Table.alter style change path ⟨.header, last⟩
      return store (.tables earlier inner.members)
    | some (.table origin members) =>
      if style.mayEnter origin then do
        let inner ← Table.alter style change path ⟨origin, members⟩
        return store inner.toValue
      else none
    | some _ => none

/-- Gives a first value to a key of the table itself. -/
def Table.define (key : String) (value : Value) (table : Table) : Option Table :=
  match table.members.get? key with
  | none => some { table with members := Members.put key value table.members }
  | some _ => none

/-- Gives a first value to a key that may be dotted. A dotted key must end in a
table that dotted keys alone have built. -/
def Table.assign (path : List String) (key : String) (value : Value) (table : Table) :
    Option Table :=
  Table.alter .dotted
    (fun inner =>
      if path.isEmpty || inner.origin = .dotted then inner.define key value else none)
    path table

/-- Gives a table its header: it must be new or known from the headers of tables
inside it only. -/
def Table.openHeader (path : List String) (key : String) (table : Table) : Option Table :=
  Table.alter .header
    (fun parent =>
      match parent.members.get? key with
      | none => parent.define key (.table .header [])
      | some (.table .implied members) =>
        some { parent with members := Members.put key (.table .header members) parent.members }
      | some _ => none)
    path table

/-- Adds a table to an array of tables, which may be new. -/
def Table.openElement (path : List String) (key : String) (table : Table) : Option Table :=
  Table.alter .header
    (fun parent =>
      match parent.members.get? key with
      | none => parent.define key (.tables [] [])
      | some (.tables earlier last) =>
        some { parent with
          members := Members.put key (.tables (last :: earlier) []) parent.members }
      | some _ => none)
    path table

end Depot.Toml
