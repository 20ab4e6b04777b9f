import Depot.Main
import Depot.NameLocks
import Depot.Proofs.Batch
import Depot.Proofs.Bucket.Batches
import Depot.Proofs.Bucket.Calm
import Depot.Proofs.Bucket.Conflicts
import Depot.Proofs.Bucket.Creation
import Depot.Proofs.Bucket.Deletion
import Depot.Proofs.Bucket.Engines
import Depot.Proofs.Bucket.Entry
import Depot.Proofs.Bucket.Failures
import Depot.Proofs.Bucket.Footprint
import Depot.Proofs.Bucket.Identities
import Depot.Proofs.Bucket.Lookup
import Depot.Proofs.Bucket.Modes
import Depot.Proofs.Bucket.Selecting
import Depot.Proofs.Bucket.Spellings
import Depot.Proofs.Bucket.Streaming
import Depot.Proofs.Command.Composing
import Depot.Proofs.Command.Intact
import Depot.Proofs.Command.Opening
import Depot.Proofs.Command.RoundTrip
import Depot.Proofs.Command.Working
import Depot.Proofs.Consistency
import Depot.Proofs.Consistency.Commuting
import Depot.Proofs.Consistency.Filtering
import Depot.Proofs.Consistency.Keeping
import Depot.Proofs.Consistency.Legibility
import Depot.Proofs.Consistency.Listing
import Depot.Proofs.Consistency.Names
import Depot.Proofs.Consistency.Payloads
import Depot.Proofs.Consistency.Races
import Depot.Proofs.Consistency.Records
import Depot.Proofs.Consistency.Recovery
import Depot.Proofs.Consistency.Repair
import Depot.Proofs.Consistency.Retrying
import Depot.Proofs.Consistency.Selecting
import Depot.Proofs.Consistency.Tenancy
import Depot.Proofs.Consistency.Undoing
import Depot.Proofs.Consistency.Usability
import Depot.Proofs.FileTree
import Depot.Proofs.FileTree.Engine
import Depot.Proofs.Metadata.Layout
import Depot.Proofs.Metadata.Matching
import Depot.Proofs.Metadata.Reading
import Depot.Proofs.Metadata.Record
import Depot.Proofs.NameKey
import Depot.Proofs.NameLocks
import Depot.Proofs.Object.Operations
import Depot.Proofs.Reconciliation
import Depot.Proofs.Reconciliation.Admission
import Depot.Proofs.Reconciliation.Report
import Depot.Proofs.Reconciliation.Specification
import Depot.Proofs.Reconciliation.Usability
import Depot.Proofs.Reconciliation.Warnings
import Depot.Proofs.Results
import Depot.Proofs.Runs
import Depot.Proofs.Runs.Atomic
import Depot.Proofs.Runs.Engines
import Depot.Proofs.Runs.Failures
import Depot.Proofs.Runs.Footprint
import Depot.Proofs.Runs.Keeping
import Depot.Proofs.Runs.Modes
import Depot.Proofs.Runs.NameKeys
import Depot.Proofs.Runs.Reconciled
import Depot.Proofs.Runs.Recovery
import Depot.Proofs.Runs.Sealing
import Depot.Proofs.Runs.Tenancy
import Depot.Proofs.Runs.Workspace
import Depot.Proofs.Session
import Depot.Proofs.Session.Bindings
import Depot.Proofs.Session.Calls
import Depot.Proofs.Session.Commits
import Depot.Proofs.Session.Footprint
import Depot.Proofs.Session.Keys
import Depot.Proofs.Session.Telling
import Depot.Proofs.Sink
import Depot.Proofs.Spelling
import Depot.Proofs.Uuid
import Depot.Proofs.Uuid.Order
