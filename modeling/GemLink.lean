import GemLink.Alerts
import GemLink.Bytes
import GemLink.Catalog
import GemLink.Config
import GemLink.Conversion
import GemLink.Driver.Lifecycle
import GemLink.Driver.Reactor
import GemLink.Driver.Site
import GemLink.Error
import GemLink.Host.Alert
import GemLink.Host.Basic
import GemLink.Host.Sink
import GemLink.Item.Basic
import GemLink.Item.Cursor
import GemLink.Item.Wire
import GemLink.Json.Basic
import GemLink.Json.Reader
import GemLink.Keyed
import GemLink.Machine.Basic
import GemLink.Machine.Json
import GemLink.Message.Basic
import GemLink.Message.Frame
import GemLink.Number.Binary
import GemLink.Number.Decimal
import GemLink.Proofs.Bytes
import GemLink.Proofs.Item.RoundTrip
import GemLink.Proofs.Message.Header
import GemLink.Proofs.Session.Alike
import GemLink.Proofs.Session.Handshake
import GemLink.Proofs.Session.Operations
import GemLink.Proofs.Session.Run
import GemLink.Proofs.Session.Debounce
import GemLink.Proofs.Session.EventReports
import GemLink.Proofs.Session.LinkStatus
import GemLink.Proofs.Session.Tidings
import GemLink.Proofs.Session.Turn
import GemLink.Proofs.Session.Undisturbed
import GemLink.Proofs.Session.Unreachable
import GemLink.Proofs.Session.WellFormed
import GemLink.Session.Alarms
import GemLink.Session.Basic
import GemLink.Session.Events
import GemLink.Session.Exchange
import GemLink.Session.Link
import GemLink.Session.Replies
import GemLink.Session.Reports
import GemLink.Session.State
import GemLink.Session.Timers
import GemLink.Telemetry
import GemLink.Text.Numeral
import GemLink.Text.Utf8
import GemLink.Value
import GemLink.Proofs.Session.Course
import GemLink.Proofs.Session.Frames
import GemLink.Proofs.Session.Writes
import GemLink.Proofs.Session.Fate
import GemLink.Proofs.Session.Watch
import GemLink.Proofs.Session.Polls
import GemLink.Proofs.Session.Requests
import GemLink.Proofs.Session.Acceptance
import GemLink.Proofs.Session.Conduct
import GemLink.Proofs.Session.Stops
import GemLink.Proofs.Session.Separation
import GemLink.Proofs.Session.Cycles
import GemLink.Proofs.Item.Cursor
import GemLink.Proofs.Item.Grammar
import GemLink.Proofs.Item.Normal
import GemLink.Proofs.Session.Tally
import GemLink.Proofs.Session.Budget
import GemLink.Proofs.Session.Retries
import GemLink.Proofs.Message.Framing
import GemLink.Proofs.Message.Outgoing
import GemLink.Proofs.Session.Reception
import GemLink.Proofs.Session.Custody
import GemLink.Proofs.Session.Deeds
import GemLink.Proofs.Session.Accounting
import GemLink.Proofs.Session.Numbering
import GemLink.Proofs.Session.Transactions
import GemLink.Proofs.Session.AlarmMirrors
import GemLink.Proofs.Driver.Hold
import GemLink.Proofs.Driver.Steps
import GemLink.Proofs.Driver.Connections
import GemLink.Proofs.Driver.Reactors
import GemLink.Proofs.Conversion.ReadBack
import GemLink.Proofs.Json.RoundTrip
import GemLink.Proofs.Machine.RoundTrip
import GemLink.Proofs.Driver.Completion
import GemLink.Proofs.Driver.ClosedStatus
import GemLink.Proofs.Catalog.Sorting
import GemLink.Proofs.Item.Reading
import GemLink.Proofs.Session.Outcomes
import GemLink.Proofs.Session.EventOutcomes
import GemLink.Proofs.Session.PollAnswers
import GemLink.Proofs.Session.Passes
import GemLink.Proofs.Conversion.Integers
import GemLink.Proofs.Number.Decimal
import GemLink.Proofs.Conversion.Elements
import GemLink.Proofs.Catalog.Sizes
import GemLink.Proofs.Session.Transmission
import GemLink.Proofs.Driver.Grip
import GemLink.Proofs.Driver.Answers
import GemLink.Proofs.Item.Progress
import GemLink.Proofs.Session.EventQueries
