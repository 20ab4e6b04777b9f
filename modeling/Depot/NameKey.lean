import Depot.Text.Utf8

/-!
# Keys of the name region

An object's entry in the name region stands under its name and its owner. Owners
in canonical form all have the same width, so the key can be taken apart even
when the name contains the separator.
-/

namespace Depot

/-- What stands between a name and its owner. -/
def nameSeparator : String := "_"

/-- The key of a name and an owner in the name region. -/
def nameKey (name owner : String) : Bytes := Utf8.encode (name ++ nameSeparator ++ owner)

end Depot
