import SecureInbox.Files.Tree
import SecureInbox.Intake.Queue
import SecureInbox.Mailbox.Faulty
import SecureInbox.Main
import SecureInbox.Proofs.Intake.ExactlyOnce
import SecureInbox.Record.Trust
import SecureInbox.Session.Faulty
import SecureInbox.Session.Locks
import SecureInbox.Proofs.Session.Ledger
import SecureInbox.Proofs.Session.Moves
import SecureInbox.Proofs.Session.Replay
import SecureInbox.Proofs.Text.Base64
import SecureInbox.Proofs.Wire
import SecureInbox.Proofs.Part.Envelope
import SecureInbox.Proofs.Part.Partial
import SecureInbox.Proofs.Part.Oldest
import SecureInbox.Proofs.Part.Collect
import SecureInbox.Proofs.Part.History
import SecureInbox.Proofs.Part.Provenance
import SecureInbox.Proofs.Part.Shipment
import SecureInbox.Proofs.Intake.Split
import SecureInbox.Proofs.Intake.Commitment
import SecureInbox.Proofs.Intake.Whole
import SecureInbox.Proofs.Session.Prekeys
import SecureInbox.Proofs.Part.Room
import SecureInbox.Proofs.Part.Completion
import SecureInbox.Proofs.Intake.Memory
import SecureInbox.Proofs.Mailbox.Memory
import SecureInbox.Proofs.Part.Isolation
import SecureInbox.Proofs.Intake.Holdings
import SecureInbox.Proofs.Intake.Assembly
import SecureInbox.Proofs.Intake.Noninterference
import SecureInbox.Proofs.Session.Verdict
import SecureInbox.Proofs.Session.Rejection
import SecureInbox.Proofs.Session.Identity
import SecureInbox.Proofs.Intake.Agreement
import SecureInbox.Proofs.Intake.Failure
import SecureInbox.Proofs.Intake.Secrecy
import SecureInbox.Proofs.Key.Material
import SecureInbox.Proofs.Intake.Flags
import SecureInbox.Proofs.Intake.Redelivery
import SecureInbox.Proofs.Session.Locks
import SecureInbox.Proofs.Key.Format
import SecureInbox.Proofs.Key.Exchange
import SecureInbox.Proofs.Key.Bundle
import SecureInbox.Proofs.Intake.Unwrapping
import SecureInbox.Proofs.Program.Report
import SecureInbox.Proofs.Text.Bits
import SecureInbox.Proofs.Wire.Canonical
import SecureInbox.Proofs.Part.Header
import SecureInbox.Proofs.Part.Splitting
import SecureInbox.Proofs.Part.Eviction
import SecureInbox.Proofs.Part.Survival
import SecureInbox.Proofs.Part.Finality
import SecureInbox.Proofs.Mailbox.Numbering
import SecureInbox.Proofs.Session.Commits
import SecureInbox.Proofs.Config.Reloading
import SecureInbox.Proofs.Record.RoundTrip
import SecureInbox.Proofs.Part.Occupancy
import SecureInbox.Proofs.Intake.Lag
