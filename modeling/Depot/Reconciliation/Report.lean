/-!
# What a reconciliation finds

The counts of the repairs that bring the regions of a store back into agreement.
-/

namespace Depot.Reconciliation

/-- How many repairs of each kind are made. -/
structure Report where
  orphanedPayloads : Nat := 0
  /-- Metadata records that are unusable or have no content, removed. -/
  orphanedRecords : Nat := 0
  restoredNames : Nat := 0
  danglingNames : Nat := 0
deriving DecidableEq, Repr, Inhabited

/-- The number of repairs. -/
def Report.total (report : Report) : Nat :=
  report.orphanedPayloads + report.orphanedRecords + report.restoredNames + report.danglingNames

/-- Whether there was nothing to repair. -/
def Report.isClean (report : Report) : Bool := report.total = 0

end Depot.Reconciliation
