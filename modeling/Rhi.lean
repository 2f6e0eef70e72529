import Rhi.Admin.Agreement
import Rhi.Admin.Cursor
import Rhi.Admin.Disguises
import Rhi.Admin.Failures
import Rhi.Admin.Guarantees
import Rhi.Admin.Journal
import Rhi.Admin.Operations
import Rhi.Admin.Pages
import Rhi.Admin.Queries
import Rhi.Admin.Refresh
import Rhi.Admin.Replays
import Rhi.Admin.Routes
import Rhi.Admin.Targets
import Rhi.Admin.Validation
import Rhi.Admission
import Rhi.Admission.Preflight
import Rhi.Admission.Strings
import Rhi.Admission.Tags
import Rhi.Attempt
import Rhi.Attempt.Documents
import Rhi.Attempt.Effects
import Rhi.Attempt.Finish
import Rhi.Backoffs
import Rhi.Catalog
import Rhi.Claiming
import Rhi.Commit
import Rhi.Commit.Effects
import Rhi.Commit.Idempotence
import Rhi.Completion
import Rhi.Configuration
import Rhi.Configuration.Effective
import Rhi.Configuration.Effects
import Rhi.Configuration.History
import Rhi.Configuration.Redaction
import Rhi.Daemon
import Rhi.Daemon.Board
import Rhi.Daemon.Dirty
import Rhi.Daemon.Jitter
import Rhi.Daemon.Planning
import Rhi.Daemon.Worker
import Rhi.Delivery
import Rhi.Evidence
import Rhi.Evidence.Checkpoints
import Rhi.Evidence.Effects
import Rhi.Evidence.Persistence
import Rhi.Fetch
import Rhi.Fetch.Committable
import Rhi.Fetch.Paging
import Rhi.Finalization
import Rhi.Finalization.Chain
import Rhi.Finalization.Durable
import Rhi.Finalization.Effects
import Rhi.Ingest
import Rhi.Ingest.Accounting
import Rhi.Job
import Rhi.Job.Effects
import Rhi.Job.Rows
import Rhi.Job.Scheduling
import Rhi.Job.Selection
import Rhi.Job.Totality
import Rhi.Job.Transitions
import Rhi.Lib.Backoff
import Rhi.Lib.BinarySearch
import Rhi.Lib.Board
import Rhi.Lib.Dialogue
import Rhi.Lib.Document
import Rhi.Lib.Encoding
import Rhi.Lib.Hashing
import Rhi.Lib.JsonString
import Rhi.Lib.Machine
import Rhi.Lib.Percent
import Rhi.Lib.Rejection
import Rhi.Lib.Simulation
import Rhi.Lib.SortedEntries
import Rhi.Lib.Table
import Rhi.Lib.Transaction
import Rhi.Lib.Transition
import Rhi.Manifest
import Rhi.Manifest.Identities
import Rhi.Manifest.Preimages
import Rhi.Manifest.Reduction
import Rhi.Presence
import Rhi.Presence.Commits
import Rhi.Presence.Effects
import Rhi.Presence.Errors
import Rhi.Presence.Generations
import Rhi.Presence.Operations
import Rhi.Presence.Outcomes
import Rhi.Presence.Records
import Rhi.Presence.Refreshes
import Rhi.Presence.Repetitions
import Rhi.Presence.Runs
import Rhi.Publication
import Rhi.Publication.Coherence
import Rhi.Publication.Effects
import Rhi.Publication.Errors
import Rhi.Publication.Guarantees
import Rhi.Publication.History
import Rhi.Publication.Log
import Rhi.Publication.Publishers
import Rhi.Publication.Queue
import Rhi.Publication.Repetitions
import Rhi.Publication.Retries
import Rhi.Publication.Runs
import Rhi.Reconcilers
import Rhi.Recording
import Rhi.Runtime
import Rhi.Runtime.Attempts
import Rhi.Runtime.Deliveries
import Rhi.Runtime.Effects
import Rhi.Runtime.Guarantees
import Rhi.Runtime.Refreshes
import Rhi.Service
import Rhi.Service.Board
import Rhi.Service.Dirty
import Rhi.Service.Effects
import Rhi.Service.Fence
import Rhi.Service.Finalizations
import Rhi.Service.Jobs
import Rhi.Service.Revisions
import Rhi.Service.Scheduling
