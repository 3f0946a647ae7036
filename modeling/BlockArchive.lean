import BlockArchive.Main
import BlockArchive.Record.Construct
import BlockArchive.Proofs.Act.Refinement
import BlockArchive.Proofs.Ingest.Refinement
import BlockArchive.Proofs.Ingest.Cache
import BlockArchive.Proofs.Ingest.Settlement
import BlockArchive.Proofs.Ingest.Cut
import BlockArchive.Proofs.Store.AllOrNothing
import BlockArchive.Proofs.Ingest.Retry
import BlockArchive.Proofs.Json.RoundTrip
import BlockArchive.Proofs.Act.Invariant
import BlockArchive.Proofs.Ingest.Typed
import BlockArchive.Proofs.Store.Database
import BlockArchive.Proofs.Store.Table
import BlockArchive.Proofs.Ingest.Session
import BlockArchive.Proofs.Ingest.Deposit
import BlockArchive.Proofs.Ingest.Batch
import BlockArchive.Proofs.Ingest.Ledger
import BlockArchive.Proofs.Ingest.Handover
import BlockArchive.Proofs.Ingest.Restart
import BlockArchive.Proofs.Ingest.Abort
import BlockArchive.Proofs.Chain.Fixture
import BlockArchive.Proofs.Chain.Reading
import BlockArchive.Proofs.Ingest.Replay
import BlockArchive.Proofs.Act.Outcome
import BlockArchive.Proofs.Ingest.Noninterference
import BlockArchive.Proofs.Store.Writing
import BlockArchive.Proofs.Store.Atomic
import BlockArchive.Proofs.Store.Appending
import BlockArchive.Proofs.Ingest.Lookups
import BlockArchive.Proofs.Ingest.Orphans
import BlockArchive.Proofs.Record.Declared
import BlockArchive.Proofs.Store.Legible
import BlockArchive.Proofs.Store.Faults
import BlockArchive.Proofs.Ingest.Faults
import BlockArchive.Proofs.Ingest.Phases
import BlockArchive.Proofs.Ingest.Loading
import BlockArchive.Proofs.Ingest.Lossless
import BlockArchive.Proofs.Ingest.Reports
import BlockArchive.Proofs.Ingest.Succession
import BlockArchive.Proofs.Ingest.SecondRun
import BlockArchive.Proofs.Chain.HexText
import BlockArchive.Proofs.Chain.Spelling
import BlockArchive.Proofs.Disk.Finding
import BlockArchive.Proofs.Ingest.Neighbours
import BlockArchive.Proofs.Ingest.Provenance
import BlockArchive.Proofs.Ingest.Reopening
import BlockArchive.Proofs.Ingest.Spelling
import BlockArchive.Proofs.Ingest.WellFormed
import BlockArchive.Proofs.Record.WellFormed
import BlockArchive.Proofs.Store.Answering
import BlockArchive.Proofs.Store.Reopening
import BlockArchive.Proofs.Json.Ascii
import BlockArchive.Proofs.Record.Canonical
import BlockArchive.Proofs.Store.Listing
import BlockArchive.Proofs.Store.Appended
import BlockArchive.Proofs.Act.Rows
import BlockArchive.Proofs.Store.Reticent
import BlockArchive.Proofs.Ingest.Diagnostics
import BlockArchive.Proofs.Chain.HexGrammar
import BlockArchive.Proofs.Record.Positions
import BlockArchive.Proofs.Ingest.Acceptance
import BlockArchive.Ingest.Resolver
import BlockArchive.Proofs.Ingest.Frugality
import BlockArchive.Proofs.Ingest.Deliveries
import BlockArchive.Proofs.Record.Keys
import BlockArchive.Proofs.Disk.Paths
import BlockArchive.Proofs.Settings.Choices
import BlockArchive.Proofs.Settings.Precedence
import BlockArchive.Proofs.Settings.Slots
import BlockArchive.Proofs.Settings.Loading
