import TypingTrace.Engine.Background
import TypingTrace.Main
import TypingTrace.Metric.Samples
import TypingTrace.Session.Request
import TypingTrace.Proofs.StableSort
import TypingTrace.Proofs.Session.Identity
import TypingTrace.Proofs.Session.Chronology
import TypingTrace.Proofs.Engine.Publication
import TypingTrace.Proofs.Session.Request
import TypingTrace.Proofs.Session.Move
import TypingTrace.Proofs.Engine.Values
import TypingTrace.Proofs.Session.Freshness
import TypingTrace.Proofs.Event.Wire
import TypingTrace.Proofs.Session.Reset
import TypingTrace.Proofs.Session.Ingestion
import TypingTrace.Proofs.Session.Integrity
import TypingTrace.Proofs.Engine.Failures
import TypingTrace.Proofs.Engine.Isolation
import TypingTrace.Proofs.Engine.Memo
import TypingTrace.Proofs.Engine.Deadline
import TypingTrace.Proofs.Metric.Observed
import TypingTrace.Proofs.Session.Analytics
import TypingTrace.Proofs.Session.Delivery
import TypingTrace.Proofs.Text.Ascii
import TypingTrace.Proofs.Time.Calendar
import TypingTrace.Proofs.Time.Range
import TypingTrace.Proofs.Time.Iso
import TypingTrace.Proofs.Event.RoundTrip
import TypingTrace.Proofs.Text.Lines
import TypingTrace.Proofs.Event.Batch
import TypingTrace.Proofs.Session.Export
import TypingTrace.Proofs.Session.Query
import TypingTrace.Proofs.Session.Renaming
import TypingTrace.Proofs.Session.Address
import TypingTrace.Proofs.Session.Twin
import TypingTrace.Proofs.Session.Isolation
import TypingTrace.Proofs.Json.Texts
import TypingTrace.Proofs.Json.Lines
import TypingTrace.Proofs.Log.Buffer
import TypingTrace.Proofs.Log.Reading
import TypingTrace.Proofs.Engine.Logging
import TypingTrace.Proofs.Engine.Agreement
import TypingTrace.Proofs.Engine.Refusal
import TypingTrace.Proofs.Engine.Waiting
import TypingTrace.Proofs.Engine.Occupancy
import TypingTrace.Proofs.Session.Submission
import TypingTrace.Proofs.Session.Duration
import TypingTrace.Proofs.Metric.Registration
import TypingTrace.Proofs.Settings.Tree
import TypingTrace.Proofs.Json.Trees
import TypingTrace.Proofs.Settings.Environment
import TypingTrace.Proofs.Settings.Layers
import TypingTrace.Proofs.Settings.Lens
import TypingTrace.Proofs.Number.Rounding
import TypingTrace.Proofs.Number.Doubles
import TypingTrace.Proofs.Time.Milliseconds
import TypingTrace.Proofs.Time.Precision
import TypingTrace.Proofs.Session.Milliseconds
import TypingTrace.Proofs.Event.Grammar
import TypingTrace.Proofs.Engine.Finiteness
import TypingTrace.Proofs.Report.Cells
import TypingTrace.Proofs.Report.Duration
import TypingTrace.Proofs.Report.Agreement
import TypingTrace.Proofs.Metric.Values
import TypingTrace.Proofs.Metric.Timing
import TypingTrace.Proofs.Metric.Rates
import TypingTrace.Proofs.Metric.Bursts
import TypingTrace.Proofs.Metric.Signal
import TypingTrace.Proofs.Metric.Likeness
import TypingTrace.Proofs.Metric.Noise
import TypingTrace.Proofs.Metric.Corrections
import TypingTrace.Proofs.Number.Magnitude
import TypingTrace.Proofs.Number.Conversion
import TypingTrace.Proofs.Number.Order
import TypingTrace.Proofs.Metric.Totality
import TypingTrace.Proofs.Metric.Threshold
import TypingTrace.Proofs.Metric.Pauses
import TypingTrace.Proofs.CommandLine.Filters
import TypingTrace.Proofs.CommandLine.Display
