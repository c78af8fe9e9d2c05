import MediaCommand.Catalog
import MediaCommand.Catalog.Fixed
import MediaCommand.Command.ArgumentList
import MediaCommand.Command.Run
import MediaCommand.Command.Setting
import MediaCommand.Execution.Basic
import MediaCommand.Execution.Executor
import MediaCommand.Failure
import MediaCommand.Filter.Build
import MediaCommand.Filter.Class
import MediaCommand.Filter.Names
import MediaCommand.Filter.Node
import MediaCommand.Filter.Option
import MediaCommand.Filter.Overlay
import MediaCommand.Filter.Setting
import MediaCommand.Graph.Basic
import MediaCommand.Graph.Workspace
import MediaCommand.Keyed
import MediaCommand.Log.Conversion
import MediaCommand.Log.Journal
import MediaCommand.Log.Sanitize
import MediaCommand.Log.Template
import MediaCommand.Number.Decimal
import MediaCommand.Number.Double
import MediaCommand.Number.Notation
import MediaCommand.Number.Rounding
import MediaCommand.Number.Scaled
import MediaCommand.Number.Shortest
import MediaCommand.Probe.FormatList
import MediaCommand.Probe.Json
import MediaCommand.Probe.Result
import MediaCommand.Progress.Clock
import MediaCommand.Progress.Line
import MediaCommand.Proofs.Action
import MediaCommand.Proofs.Command.Calls
import MediaCommand.Proofs.Command.Edits
import MediaCommand.Proofs.Command.ExitCode
import MediaCommand.Proofs.Command.Indices
import MediaCommand.Proofs.Command.OutputPlace
import MediaCommand.Proofs.Execution.Cancellation
import MediaCommand.Proofs.Execution.Course
import MediaCommand.Proofs.Execution.ErrorLines
import MediaCommand.Proofs.Execution.EventProtocol
import MediaCommand.Proofs.Execution.Outcome
import MediaCommand.Proofs.Execution.Telling
import MediaCommand.Proofs.Filter.ArgumentStorage
import MediaCommand.Proofs.Graph.Account
import MediaCommand.Proofs.Graph.Grammar
import MediaCommand.Proofs.Graph.Outline
import MediaCommand.Proofs.Keyed
import MediaCommand.Proofs.Tokens
import MediaCommand.Session
import MediaCommand.Settings
import MediaCommand.Settings.TimeLimit
import MediaCommand.Settings.Variables
import MediaCommand.Store
import MediaCommand.Text.Blank
import MediaCommand.Text.Case
import MediaCommand.Text.CharacterSet
import MediaCommand.Text.Digit
import MediaCommand.Text.Escape
import MediaCommand.Text.Lines
import MediaCommand.Text.Numeral
import MediaCommand.Text.Printable
import MediaCommand.Text.Quoted
import MediaCommand.Tokens
import MediaCommand.Value
import MediaCommand.Value.Color
import MediaCommand.Value.Constants
import MediaCommand.Value.Normal
import MediaCommand.Value.Order
import MediaCommand.Value.Text
import MediaCommand.Proofs.Command.Stored
import MediaCommand.Proofs.Command.Separation
import MediaCommand.Proofs.Number.Range
import MediaCommand.Proofs.Probe.Result
import MediaCommand.Proofs.Value.Writable
import MediaCommand.Proofs.Filter.Rendering
import MediaCommand.Proofs.Command.FailedCalls
import MediaCommand.Proofs.Filter.FailedCalls
import MediaCommand.Proofs.Filter.Escapes
import MediaCommand.Proofs.Value.TokenTables
import MediaCommand.Proofs.History
import MediaCommand.Proofs.Filter.NameLookups
import MediaCommand.Proofs.Filter.ClassNames
import MediaCommand.Proofs.Command.SettingsReads
import MediaCommand.Proofs.Probe.FormatQuery
import MediaCommand.Proofs.Command.Caches
import MediaCommand.Proofs.Filter.Places
import MediaCommand.Proofs.Filter.Looking
import MediaCommand.Proofs.Filter.Quoting
import MediaCommand.Proofs.Filter.Traces
import MediaCommand.Proofs.Filter.AbsentValues
import MediaCommand.Proofs.Store
import MediaCommand.Proofs.Filter.Flushing
import MediaCommand.Proofs.Graph.Sharing
import MediaCommand.Proofs.Reference
import MediaCommand.Proofs.Graph.Plans
import MediaCommand.Proofs.Graph.Routes
import MediaCommand.Proofs.Graph.Owners
import MediaCommand.Proofs.Command.FilterRoutes
import MediaCommand.Proofs.Number.Hundredths
import MediaCommand.Proofs.Number.Comparison
import MediaCommand.Proofs.Filter.Ranges
import MediaCommand.Proofs.Number.Layout
import MediaCommand.Proofs.Value.Spelling
import MediaCommand.Proofs.Value.Composites
import MediaCommand.Proofs.Command.FilterOption
import MediaCommand.Proofs.Number.Numeral
import MediaCommand.Proofs.Number.Nearest
import MediaCommand.Proofs.Number.Doubles
import MediaCommand.Proofs.Number.Shortest
import MediaCommand.Proofs.Value.DoubleText
import MediaCommand.Proofs.Number.Division
import MediaCommand.Proofs.Progress.ClockFace
import MediaCommand.Proofs.Progress.ClockText
import MediaCommand.Proofs.Progress.ClockReading
import MediaCommand.Proofs.Progress.StatsLine
import MediaCommand.Proofs.Probe.Listing
import MediaCommand.Proofs.Log.Unbroken
import MediaCommand.Proofs.Log.Sanitized
import MediaCommand.Proofs.Log.Conversions
import MediaCommand.Proofs.Log.Templates
import MediaCommand.Proofs.Log.SafeLogging
import MediaCommand.Proofs.Log.Messages
import MediaCommand.Proofs.Execution.Reporting
import MediaCommand.Proofs.Execution.FailureLog
import MediaCommand.Proofs.Command.FailedFilters
import MediaCommand.Proofs.Command.EmptyFilters
import MediaCommand.Proofs.Graph.CheckedTuples
import MediaCommand.Proofs.Command.SingleKeys
import MediaCommand.Proofs.Command.Overwriting
import MediaCommand.Proofs.Execution.Faults
import MediaCommand.Proofs.Command.Probes
import MediaCommand.Proofs.Probe.Numerals
import MediaCommand.Proofs.Probe.NumericFields
import MediaCommand.Proofs.Filter.Colors
