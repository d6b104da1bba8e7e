import DeterministicExchange.Book.FastPath
import DeterministicExchange.Book.Replacement
import DeterministicExchange.Engine.Backup
import DeterministicExchange.Engine.BundleIntegrity
import DeterministicExchange.Engine.Checkpoint
import DeterministicExchange.Engine.CrashRecovery
import DeterministicExchange.Engine.Resumption
import DeterministicExchange.Engine.SessionCommit
import DeterministicExchange.Events.Stream
import DeterministicExchange.Ffi.Session
import DeterministicExchange.Gateway.BookOrder
import DeterministicExchange.Gateway.Digest
import DeterministicExchange.Gateway.Frame
import DeterministicExchange.Gateway.Indexes
import DeterministicExchange.Gateway.Isolation
import DeterministicExchange.Gateway.KillSwitch
import DeterministicExchange.Gateway.OrderLimits
import DeterministicExchange.Gateway.Rejection
import DeterministicExchange.Gateway.Untrusted
import DeterministicExchange.Io.InMemoryRx
import DeterministicExchange.Journal.Progress
import DeterministicExchange.Journal.Watch
import DeterministicExchange.Model.Generation
import DeterministicExchange.Recovery.PersistRace
import DeterministicExchange.Recovery.Replay
import DeterministicExchange.Recovery.TailScan
import DeterministicExchange.Replay.FrameReplay
import DeterministicExchange.Risk.Invariant
import DeterministicExchange.Router.Delivery
import DeterministicExchange.Session.Deadlines
import DeterministicExchange.Session.Retransmit
import DeterministicExchange.Session.Sequencing
import DeterministicExchange.Soak.Reconstruction
import DeterministicExchange.Spsc.Ownership
