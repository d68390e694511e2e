import ChangeAudit.Json.Printer
import ChangeAudit.Keyring
import ChangeAudit.Sink.File
import ChangeAudit.Text.Hex
import ChangeAudit.Workspace
import ChangeAudit.Proofs.Actor
import ChangeAudit.Proofs.Cipher.Gcm
import ChangeAudit.Proofs.Envelope
import ChangeAudit.Proofs.Event
import ChangeAudit.Proofs.FileArea
import ChangeAudit.Proofs.Gate
import ChangeAudit.Proofs.Gate.Invocations
import ChangeAudit.Proofs.Instant
import ChangeAudit.Proofs.Json.Continued
import ChangeAudit.Proofs.Json.Decode
import ChangeAudit.Proofs.Json.Distinct
import ChangeAudit.Proofs.Json.Equal
import ChangeAudit.Proofs.Json.Fields
import ChangeAudit.Proofs.Json.Integers
import ChangeAudit.Proofs.Json.RoundTrip
import ChangeAudit.Proofs.Json.Strings
import ChangeAudit.Proofs.Json.Values
import ChangeAudit.Proofs.Keyring
import ChangeAudit.Proofs.OrderedMap
import ChangeAudit.Proofs.Policy.Association
import ChangeAudit.Proofs.Policy.Export
import ChangeAudit.Proofs.Policy.History
import ChangeAudit.Proofs.Policy.Layer
import ChangeAudit.Proofs.Policy.Layered
import ChangeAudit.Proofs.Policy.Origins
import ChangeAudit.Proofs.Policy.Overrides
import ChangeAudit.Proofs.Policy.Paths
import ChangeAudit.Proofs.Policy.Reset
import ChangeAudit.Proofs.Policy.Respelled
import ChangeAudit.Proofs.Policy.Secondary
import ChangeAudit.Proofs.Policy.Settings
import ChangeAudit.Proofs.Policy.Spelling
import ChangeAudit.Proofs.Record.RoundTrip
import ChangeAudit.Proofs.Record.Shown
import ChangeAudit.Proofs.Sink.Appended
import ChangeAudit.Proofs.Sink.Batches
import ChangeAudit.Proofs.Sink.File
import ChangeAudit.Proofs.Sink.Memory
import ChangeAudit.Proofs.Stamp.Accessor
import ChangeAudit.Proofs.Stamp.Build
import ChangeAudit.Proofs.Stamp.Derived
import ChangeAudit.Proofs.Stamp.Order
import ChangeAudit.Proofs.Stamp.Override
import ChangeAudit.Proofs.Stamp.Plan
import ChangeAudit.Proofs.Stamping
import ChangeAudit.Proofs.Stamping.Kinds
import ChangeAudit.Proofs.Stamping.Missing
import ChangeAudit.Proofs.Stamping.Signed
import ChangeAudit.Proofs.Text.Base64
import ChangeAudit.Proofs.Text.Capital
import ChangeAudit.Proofs.Text.Digits
import ChangeAudit.Proofs.Text.Lines
import ChangeAudit.Proofs.Trail.Conservation
import ChangeAudit.Proofs.Trail.Delivery
import ChangeAudit.Proofs.Trail.Isolation
import ChangeAudit.Proofs.Trail.Lane
import ChangeAudit.Proofs.Trail.Order
import ChangeAudit.Proofs.Trail.Restamping
import ChangeAudit.Proofs.Transition
import ChangeAudit.Proofs.Transition.Changed
import ChangeAudit.Proofs.Transition.Exchange
import ChangeAudit.Proofs.Transition.Ignored
import ChangeAudit.Proofs.Transition.Masking
import ChangeAudit.Proofs.Transition.Recovered
import ChangeAudit.Proofs.Transition.Reported
import ChangeAudit.Proofs.Transition.Shortened
import ChangeAudit.Proofs.Transition.Unsealed
import ChangeAudit.Proofs.Workspace
