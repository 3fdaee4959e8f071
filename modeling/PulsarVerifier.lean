import PulsarVerifier.Chain.Client
import PulsarVerifier.Chain.Descriptor
import PulsarVerifier.Chain.Recovery
import PulsarVerifier.Config
import PulsarVerifier.Control
import PulsarVerifier.Lib.Absorb
import PulsarVerifier.Lib.Async
import PulsarVerifier.Lib.Blake3
import PulsarVerifier.Lib.Broadcast
import PulsarVerifier.Lib.Checks
import PulsarVerifier.Lib.Expiry
import PulsarVerifier.Lib.Ledger
import PulsarVerifier.Lib.Logged
import PulsarVerifier.Lib.Lts
import PulsarVerifier.Lib.Mirror
import PulsarVerifier.Lib.Network
import PulsarVerifier.Lib.Program
import PulsarVerifier.Lib.Proto3
import PulsarVerifier.Lib.Protobuf
import PulsarVerifier.Lib.SelfDelimiting
import PulsarVerifier.Lib.Sha2
import PulsarVerifier.Lib.Table
import PulsarVerifier.Lib.Text
import PulsarVerifier.Listener.Agreement
import PulsarVerifier.Listener.Authorization
import PulsarVerifier.Listener.Coverage
import PulsarVerifier.Listener.Events
import PulsarVerifier.Listener.Heights
import PulsarVerifier.Listener.Session
import PulsarVerifier.Node.Agreement
import PulsarVerifier.Node.Requests
import PulsarVerifier.Node.System
import PulsarVerifier.P2p.Availability
import PulsarVerifier.P2p.Beliefs
import PulsarVerifier.P2p.Bookkeeping
import PulsarVerifier.P2p.Bounds
import PulsarVerifier.P2p.Codec
import PulsarVerifier.P2p.Courses
import PulsarVerifier.P2p.Deadlock
import PulsarVerifier.P2p.Drain
import PulsarVerifier.P2p.Driver
import PulsarVerifier.P2p.DriverTask
import PulsarVerifier.P2p.Gossip
import PulsarVerifier.P2p.Inbound
import PulsarVerifier.P2p.Index
import PulsarVerifier.P2p.MessageId
import PulsarVerifier.P2p.Messages
import PulsarVerifier.P2p.Network
import PulsarVerifier.P2p.Outbound
import PulsarVerifier.P2p.Ownership
import PulsarVerifier.P2p.Progress
import PulsarVerifier.P2p.Protocol
import PulsarVerifier.P2p.Providers
import PulsarVerifier.P2p.Resilience
import PulsarVerifier.P2p.Retrieval
import PulsarVerifier.P2p.Slots
import PulsarVerifier.P2p.System
import PulsarVerifier.P2p.Timers
import PulsarVerifier.P2p.Wire
import PulsarVerifier.P2p.Worker
import PulsarVerifier.P2p.WorkerTask
import PulsarVerifier.Proof
import PulsarVerifier.Rpc.Budget
import PulsarVerifier.Rpc.Contract
import PulsarVerifier.Rpc.Statuses
import PulsarVerifier.Runtime.App
import PulsarVerifier.Runtime.Lifecycle
import PulsarVerifier.Runtime.Services
import PulsarVerifier.Runtime.Tasks
import PulsarVerifier.Store.Arrival
import PulsarVerifier.Store.Content
import PulsarVerifier.Store.Expiry
import PulsarVerifier.Store.Invariant
import PulsarVerifier.Store.Operations
import PulsarVerifier.Store.Record
import PulsarVerifier.Store.Report
import PulsarVerifier.Store.SingleFlight
import PulsarVerifier.Store.System
import PulsarVerifier.Store.Weight
import PulsarVerifier.Submission.Commitment
import PulsarVerifier.Submission.Service
import PulsarVerifier.Submission.Validation
import PulsarVerifier.Verification.Jobs
import PulsarVerifier.Verification.Noir
import PulsarVerifier.Verification.Readiness
import PulsarVerifier.Verification.Retry
import PulsarVerifier.Verification.Soundness
import PulsarVerifier.Verification.System
import PulsarVerifier.Verification.Worker
