import PacketRelay.Client.Trust
import PacketRelay.Config.Environment
import PacketRelay.Config.Writer
import PacketRelay.Relay
import PacketRelay.Simulation.Schedule
import PacketRelay.Proofs.Program.History
import PacketRelay.Proofs.Program.Inversion
import PacketRelay.Proofs.Program.Asks
import PacketRelay.Proofs.Retry.Attempts
import PacketRelay.Proofs.Program.Watched
import PacketRelay.Proofs.Program.Passing
import PacketRelay.Proofs.Schema.Encoding
import PacketRelay.Proofs.Wire.Entry
import PacketRelay.Proofs.Schema.Decoding
import PacketRelay.Proofs.Tx.Content
import PacketRelay.Proofs.Tx.Size
import PacketRelay.Proofs.Tx.Signed
import PacketRelay.Proofs.Submission.Building
import PacketRelay.Proofs.Tx.Document
import PacketRelay.Proofs.Submission.Locked
import PacketRelay.Proofs.Submission.Exchanges
import PacketRelay.Proofs.Submission.Waiting
import PacketRelay.Proofs.Query.Accounts
import PacketRelay.Proofs.Submission.Lookup
import PacketRelay.Proofs.System.Basic
import PacketRelay.Proofs.System.Jobs
import PacketRelay.Proofs.System.Lock
import PacketRelay.Proofs.Submission.Concurrent
import PacketRelay.Proofs.Submission.SequenceSafety
import PacketRelay.Proofs.Decimal.Numerals
import PacketRelay.Proofs.Error.Mismatch
import PacketRelay.Proofs.Submission.Chain
import PacketRelay.Proofs.Submission.Recovery
import PacketRelay.Proofs.Submission.Outcome
import PacketRelay.Proofs.Submission.Passing
import PacketRelay.Proofs.Submission.Signing
import PacketRelay.Proofs.Submission.Progress
import PacketRelay.Proofs.Submission.KeyEvents
import PacketRelay.Proofs.Submission.Consecutive
import PacketRelay.Proofs.Confirmation
import PacketRelay.Proofs.Submission.Rebroadcast
import PacketRelay.Proofs.Packet.Expiry
import PacketRelay.Proofs.Packet.Permanence
import PacketRelay.Proofs.Relay.Decision
import PacketRelay.Proofs.Schema.Fields
import PacketRelay.Proofs.Relay.Evidence
import PacketRelay.Proofs.Handshake
import PacketRelay.Proofs.Membership
import PacketRelay.Proofs.Program.Timeline
import PacketRelay.Proofs.Program.Clock
import PacketRelay.Proofs.Confirmation.Rounds
import PacketRelay.Proofs.Confirmation.Deadline
import PacketRelay.Proofs.Confirmation.Verdict
import PacketRelay.Proofs.Retry.Course
import PacketRelay.Proofs.Retry.Refinement
import PacketRelay.Proofs.Program.Heeding
import PacketRelay.Proofs.Program.Cancelling
import PacketRelay.Proofs.Program.Composite
import PacketRelay.Proofs.Program.Unfired
import PacketRelay.Proofs.Program.Staged
import PacketRelay.Proofs.Cancellation
import PacketRelay.Proofs.Client.Injection
import PacketRelay.Proofs.Simulation.Frame
import PacketRelay.Proofs.Simulation.Polling
import PacketRelay.Proofs.Simulation.Rounds
import PacketRelay.Proofs.Wire.Length
import PacketRelay.Proofs.Schema.Reading
import PacketRelay.Proofs.Schema.Length
import PacketRelay.Proofs.Schema.Packing
import PacketRelay.Proofs.Program.Follows
import PacketRelay.Proofs.Submission.Booking
import PacketRelay.Proofs.Metrics.Samples
import PacketRelay.Proofs.System.Tally
import PacketRelay.Proofs.Metrics.Books
import PacketRelay.Proofs.System.Spawns
import PacketRelay.Proofs.Submission.Balance
import PacketRelay.Proofs.Submission.MempoolCalls
import PacketRelay.Proofs.Submission.Confirmations
import PacketRelay.Proofs.Submission.Callbacks
import PacketRelay.Proofs.Submission.Accounting
import PacketRelay.Proofs.Submission.FeeAccounts
import PacketRelay.Proofs.Submission.FeeGauges
import PacketRelay.Proofs.Simulation.Accounts
import PacketRelay.Proofs.Hex
import PacketRelay.Proofs.Packet.Reading
import PacketRelay.Proofs.Packet.Search
import PacketRelay.Proofs.Query.Assembly
import PacketRelay.Proofs.Relay.Acknowledgement
import PacketRelay.Proofs.Relay.Unjudged
import PacketRelay.Proofs.Retry.Calls
import PacketRelay.Proofs.Client.TrustedFields
import PacketRelay.Proofs.Submission.Resubmission
import PacketRelay.Proofs.Text
import PacketRelay.Proofs.Decimal.Canonical
import PacketRelay.Proofs.Store
import PacketRelay.Proofs.Query.Interchain
import PacketRelay.Proofs.Transfer
import PacketRelay.Proofs.ChainId
import PacketRelay.Proofs.Decimal.Runs
import PacketRelay.Proofs.Decimal.Faults
import PacketRelay.Proofs.Sequence
import PacketRelay.Proofs.Height
import PacketRelay.Proofs.Retry.Reporting
import PacketRelay.Proofs.Submission.Steps
