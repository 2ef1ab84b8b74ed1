import Kageb.Lib.Checks
import Kageb.Lib.Bytes
import Kageb.Lib.Codec
import Kageb.Program.Wire
import Kageb.Program.Error
import Kageb.Program.State
import Kageb.Program.Instruction
import Kageb.Program.Runtime
import Kageb.Program.Ed25519
import Kageb.Program.Processor
import Kageb.Program.Transition
import Kageb.Lib.Runs
import Kageb.Program.Lifecycle
import Kageb.Program.Reference
import Kageb.Program.Invariant
import Kageb.Program.Quorum
import Kageb.Program.Tokens
import Kageb.Host.Domain
import Kageb.Lib.Maps
import Kageb.Host.Commitment
import Kageb.Host.Ledger
import Kageb.Host.Crypto
import Kageb.Host.Lock
import Kageb.Host.Package
import Kageb.Host.Settlement
import Kageb.Host.Agreement
import Kageb.Host.Reference
import Kageb.Lib.Discipline
import Kageb.Lib.Solo
import Kageb.Lib.Tables
import Kageb.Host.Journal
import Kageb.Host.NoEquivocation
import Kageb.Host.Release
import Kageb.Host.Reservations
import Kageb.Host.Accounts
import Kageb.Lib.History
import Kageb.Host.Books
import Kageb.Host.BooksRuns
import Kageb.Host.Settled
import Kageb.Host.Finality
import Kageb.Host.Retry
import Kageb.Host.Solvency
import Kageb.Program.Acceptance
import Kageb.Host.Rebuild
import Kageb.Lib.Offsets
import Kageb.Program.Layout
import Kageb.Host.Client
import Kageb.Host.Funding
import Kageb.Host.Messages
import Kageb.Host.Requests
import Kageb.Program.Deadlines
import Kageb.Host.Admission
import Kageb.Host.Canonical
import Kageb.Host.Consumption
import Kageb.Host.Crowd
import Kageb.Host.Roots
import Kageb.Host.Sealed
import Kageb.Host.Trace
import Kageb.Lib.Journals
import Kageb.Host.Decoders
import Kageb.Host.Exits
import Kageb.Host.Loaders
import Kageb.Host.Pools
import Kageb.Host.SuspensionRuns
import Kageb.Lib.Sessions
import Kageb.Host.Processes
