import Depot.Metadata

/-!
# Matching bags against parameters

A bag of parameters selects records by equality of values. Parameters without a
value say nothing, and parameters that all say nothing select no record at all.
-/

namespace Depot

/-- How the parameters of a selection are joined. -/
inductive Connective where
  | any
  | all
deriving DecidableEq, Repr, Inhabited

namespace Metadata

/-- The parameters that have a value. -/
def constraints (parameters : Metadata) : List (String × String) :=
  parameters.toList.filter fun entry => entry.2 ≠ ""

/-- Whether a record holds exactly this value under this key. -/
def satisfies (record : Metadata) (entry : String × String) : Bool :=
  record.get? entry.1 = some entry.2

/-- Whether a record is selected by the parameters under a connective. -/
def isSelected (record parameters : Metadata) (connective : Connective) : Bool :=
  match parameters.constraints with
  | [] => false
  | constraints =>
    match connective with
    | .any => constraints.any record.satisfies
    | .all => constraints.all record.satisfies

end Metadata

end Depot
