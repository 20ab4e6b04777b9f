import Depot.OrderedMap
import Depot.Text.Utf8

/-!
# Regions

The three key spaces of a store: content by identity, identities by name and
owner, and metadata records by identity. A store's contents are these three maps
of bytes, and nothing here says which keys and values make sense together.
-/

namespace Depot

/-- One of the key spaces of a store. -/
inductive Region where
  | payload
  /-- Identities by name and owner. -/
  | name
  | metadata
deriving DecidableEq, Repr, Inhabited

/-- The name of a region. -/
def Region.text : Region → String
  | .payload => "payload"
  | .name => "name"
  | .metadata => "meta"

/-- All regions, in their fixed order. -/
def Region.all : List Region := [.payload, .name, .metadata]

/-- What the regions of a store hold. -/
structure Contents where
  payloads : OrderedMap Bytes Bytes := .empty
  names : OrderedMap Bytes Bytes := .empty
  records : OrderedMap Bytes Bytes := .empty
deriving DecidableEq, Inhabited

namespace Contents

/-- The entries of a region. -/
def region (contents : Contents) : Region → OrderedMap Bytes Bytes
  | .payload => contents.payloads
  | .name => contents.names
  | .metadata => contents.records

/-- The contents with the entries of a region changed. -/
def update (contents : Contents) (region : Region)
    (change : OrderedMap Bytes Bytes → OrderedMap Bytes Bytes) : Contents :=
  match region with
  | .payload => { contents with payloads := change contents.payloads }
  | .name => { contents with names := change contents.names }
  | .metadata => { contents with records := change contents.records }

/-- The value of a key in a region. -/
def get? (contents : Contents) (region : Region) (key : Bytes) : Option Bytes :=
  (contents.region region).get? key

/-- How many entries the regions hold, in their fixed order. -/
def sizes (contents : Contents) : List Nat :=
  Region.all.map fun region => (contents.region region).size

/-- The number of bytes in all values. -/
def valueBytes (contents : Contents) : Nat :=
  (Region.all.flatMap fun region => (contents.region region).entries).foldl
    (fun total entry => total + entry.2.length) 0

/-- The number of entries of every region in one line, as an engine in memory
describes itself. -/
def describe (contents : Contents) : String :=
  "InMemoryBackend \x7b payload_count: " ++ toString contents.payloads.size
    ++ ", name_count: " ++ toString contents.names.size
    ++ ", meta_count: " ++ toString contents.records.size ++ " \x7d"

end Contents

end Depot
