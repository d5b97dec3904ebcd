import ItemStore.Endpoint
import ItemStore.Identifier
import ItemStore.Memory.Record
import ItemStore.Memory.Request
import ItemStore.Memory.Update
import ItemStore.Settings
import ItemStore.Transport.Failure
import ItemStore.Update.Expression
import ItemStore.Version
import ItemStore.Proofs.Fields
import ItemStore.Proofs.Outcome
import ItemStore.Proofs.Update.Text
import ItemStore.Proofs.Wire.Parts
import ItemStore.Proofs.Update.Meaning
import ItemStore.Proofs.Decimal.Text
import ItemStore.Proofs.Double.Text
import ItemStore.Proofs.Value.Distinct
import ItemStore.Proofs.Value.Within
import ItemStore.Proofs.Wire.Number
import ItemStore.Proofs.Wire.Sets
import ItemStore.Proofs.Wire.RoundTrip
import ItemStore.Proofs.Wire.Canonical
import ItemStore.Proofs.Table.Sent
import ItemStore.Proofs.Key
import ItemStore.Proofs.Table.Retry
import ItemStore.Proofs.Lifecycle
import ItemStore.Proofs.Table.Agreement
import ItemStore.Proofs.Failure
import ItemStore.Proofs.Value.Shape
import ItemStore.Proofs.Matching
import ItemStore.Proofs.Transport
import ItemStore.Proofs.Wire.Refusal
import ItemStore.Proofs.Wire.Numeral
import ItemStore.Proofs.Wire.Flavour
import ItemStore.Proofs.Requests
import ItemStore.Proofs.Table.Refusal
import ItemStore.Proofs.Table.Prepared
import ItemStore.Proofs.Table.Callable
import ItemStore.Proofs.Wire.Reading
import ItemStore.Proofs.Table.Reply
import ItemStore.Proofs.Table.Calls
import ItemStore.Proofs.Table.Errors
import ItemStore.Proofs.Update.Field
import ItemStore.Proofs.Table.Report
import ItemStore.Proofs.Table.Frame
import ItemStore.Proofs.Update.Tables
import ItemStore.Proofs.Update.Placeholders
import ItemStore.Proofs.Update.Merge
import ItemStore.Proofs.Table.Removal
import ItemStore.Proofs.Table.Numeral
import ItemStore.Proofs.Table.Keys
import ItemStore.Proofs.Table.Alone
import ItemStore.Proofs.Endpoint.Address
import ItemStore.Proofs.Table.Lookup
import ItemStore.Proofs.Wire.Wrapper
import ItemStore.Proofs.Table.Audit
import ItemStore.Proofs.Endpoint.Status
import ItemStore.Proofs.Update.Compose
import ItemStore.Proofs.Calendar
import ItemStore.Proofs.Moment
import ItemStore.Proofs.Draws
import ItemStore.Proofs.Table.Draws
import ItemStore.Proofs.Calendar.DayNumber
import ItemStore.Proofs.Timestamp
import ItemStore.Proofs.Cursor
import ItemStore.Proofs.Memory.Request
import ItemStore.Proofs.Projection
import ItemStore.Proofs.Record
import ItemStore.Proofs.Memory.Basic
import ItemStore.Proofs.Memory.Record
import ItemStore.Proofs.Memory.Update
import ItemStore.Proofs.Text.Run
import ItemStore.Proofs.Text.Digits
import ItemStore.Proofs.Identifier
import ItemStore.Proofs.Settings
import ItemStore.Proofs.Settings.Given
import ItemStore.Proofs.Version
import ItemStore.Proofs.Matching.Passing
