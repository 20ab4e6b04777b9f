import Depot.OrderedMap

/-!
# Metadata

The bag of text values attached to every object, and the keys that the store
itself gives a meaning. Keys are kept in the order of their code points, which
is also the order of their bytes. Two keys belong to the store alone: ordinary
writes and removals leave them as they are.
-/

namespace Depot

/-- A bag of text values by text key. -/
structure Metadata where
  values : OrderedMap String String
deriving DecidableEq, Inhabited

namespace Metadata

/-- A key, by its meaning to the store. -/
inductive Key where
  | id
  | name
  | owner
  | createdAt
  | contentType
  /-- A tag without meaning to the store. -/
  | custom (text : String)
deriving DecidableEq, Repr

/-- The text under which a key is kept. -/
def Key.text : Key → String
  | .id => "id"
  | .name => "name"
  | .owner => "owner"
  | .createdAt => "createdAt"
  | .contentType => "contentType"
  | .custom text => text

/-- The key that a text denotes. -/
def Key.ofText (text : String) : Key :=
  if text = "id" then .id
  else if text = "name" then .name
  else if text = "owner" then .owner
  else if text = "createdAt" then .createdAt
  else if text = "contentType" then .contentType
  else .custom text

/-- The place of a key's meaning in the order of keys. -/
def Key.rank : Key → Nat
  | .id => 0
  | .name => 1
  | .owner => 2
  | .createdAt => 3
  | .contentType => 4
  | .custom _ => 5

/-- Keys with a meaning come first, in the order in which they are declared;
tags follow by their text. -/
instance : Ord Key :=
  ⟨fun left right => (compare left.rank right.rank).then (compare left.text right.text)⟩

/-- Whether a key belongs to the store alone. -/
def isProtected (key : String) : Bool := key = Key.id.text || key = Key.createdAt.text

/-- The bag without values. -/
def empty : Metadata := ⟨.empty⟩

instance : EmptyCollection Metadata := ⟨empty⟩

/-- The value under a key. -/
def get? (metadata : Metadata) (key : String) : Option String := metadata.values.get? key

/-- Whether a key has a value. -/
def has (metadata : Metadata) (key : String) : Bool := metadata.values.contains key

/-- Sets a value, whoever the key belongs to. -/
def assign (metadata : Metadata) (key value : String) : Metadata :=
  ⟨metadata.values.insert key value⟩

/-- Sets a value unless the key belongs to the store alone. -/
def set (metadata : Metadata) (key value : String) : Metadata :=
  if isProtected key then metadata else metadata.assign key value

/-- Removes a value unless the key belongs to the store alone. -/
def remove (metadata : Metadata) (key : String) : Metadata :=
  if isProtected key then metadata else ⟨metadata.values.erase key⟩

/-- The number of values. -/
def size (metadata : Metadata) : Nat := metadata.values.size

/-- Whether the bag has no values. -/
def isEmpty (metadata : Metadata) : Bool := metadata.values.isEmpty

/-- Keys and values in key order. -/
def toList (metadata : Metadata) : List (String × String) := metadata.values.entries

/-- The bag with exactly these values, the last one of a key counting. -/
def ofEntries (entries : List (String × String)) : Metadata := ⟨.ofList entries⟩

/-- The bag that ordinary writes of these values build from nothing. -/
def collect (entries : List (String × String)) : Metadata :=
  entries.foldl (fun metadata entry => metadata.set entry.1 entry.2) empty

end Metadata

end Depot
