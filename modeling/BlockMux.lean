import BlockMux.Access.ConfigText
import BlockMux.Device.AnyDevice
import BlockMux.Session.System
import BlockMux.Proofs.Acts
import BlockMux.Proofs.Recorded
import BlockMux.Proofs.PartitionOrder
import BlockMux.Proofs.TableSoundness
import BlockMux.Proofs.GrantBounds
import BlockMux.Proofs.Transitions
import BlockMux.Proofs.Runs
import BlockMux.Proofs.Course
import BlockMux.Proofs.Replay
import BlockMux.Proofs.Custody
import BlockMux.Proofs.Ledger
import BlockMux.Proofs.Confinement
import BlockMux.Proofs.Moves
import BlockMux.Proofs.Housing
import BlockMux.Proofs.Service
import BlockMux.Proofs.Isolation
import BlockMux.Proofs.Credit
import BlockMux.Proofs.Waiters
import BlockMux.Proofs.Wakeups
import BlockMux.Proofs.Writers
import BlockMux.Proofs.Accounts
import BlockMux.Proofs.Tenancy
import BlockMux.Proofs.Ownership
import BlockMux.Proofs.Departures
import BlockMux.Proofs.Overtaking
import BlockMux.Proofs.Placement
import BlockMux.Proofs.Agreement
import BlockMux.Proofs.ExtendedChains
import BlockMux.Proofs.TableExactness
import BlockMux.Proofs.BurstErrors
import BlockMux.Proofs.GuidLayout
import BlockMux.Proofs.CorruptTables
import BlockMux.Proofs.GrantExactness
import BlockMux.Proofs.Allocations
import BlockMux.Proofs.SpuriousWakeups
import BlockMux.Proofs.Promptness
import BlockMux.Proofs.SequentialDrain
import BlockMux.Proofs.Streams
import BlockMux.Proofs.Synchronous
import BlockMux.Proofs.DriverContract
import BlockMux.Proofs.Addresses
import BlockMux.Proofs.Failures
import BlockMux.Proofs.PartitionKinds
import BlockMux.Proofs.Trimming
import BlockMux.Proofs.ArgumentGrammar
import BlockMux.Proofs.Reprinting
import BlockMux.Proofs.RuleChoice
import BlockMux.Proofs.GuidArithmetic
import BlockMux.Proofs.WordLimit
import BlockMux.Proofs.Quantities
