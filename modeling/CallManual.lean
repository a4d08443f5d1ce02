import CallManual.Text.Basic
import CallManual.Parameter.Basic
import CallManual.Parameter.Parser
import CallManual.Declaration.Basic
import CallManual.Declaration.Parser
import CallManual.Declaration.Selection
import CallManual.Page.Overstrike
import CallManual.Page.Synopsis
import CallManual.Resolution.Basic
import CallManual.Resolution.Classify
import CallManual.Resolution.Report
import CallManual.Resolution.Schedule
import CallManual.Json.Basic
import CallManual.Json.Number
import CallManual.Json.Token
import CallManual.Json.Reading
import CallManual.Record.Basic
import CallManual.Record.Parameter
import CallManual.Record.Resolution
import CallManual.Text.Utf8
import CallManual.Availability.Symbols
import CallManual.Availability.Scan
import CallManual.Text.Printable
import CallManual.Text.Quoted
import CallManual.Text.Control
import CallManual.Text.Identifier
import CallManual.Text.Numeral
import CallManual.Toml.Basic
import CallManual.Toml.Date
import CallManual.Toml.DateTable
import CallManual.Toml.Scalar
import CallManual.Toml.Table
import CallManual.Toml.Document
import CallManual.Settings.Basic
import CallManual.Settings.Patch
import CallManual.Settings.Document
import CallManual.Host.Path
import CallManual.Host.Basic
import CallManual.Host.Log
import CallManual.Host.Tree
import CallManual.Host.Machine
import CallManual.Settings.Discovery
import CallManual.Page.Source
import CallManual.Resolution.Lookup
import CallManual.Availability.Loading
import CallManual.Parameter.Inspect
import CallManual.CommandLine.Grammar
import CallManual.CommandLine.Arguments
import CallManual.CommandLine.Run
import CallManual.Main
import CallManual.Proofs.Fallible
import CallManual.Proofs.Text.Trim
import CallManual.Proofs.Text.Words
import CallManual.Proofs.Text.Cut
import CallManual.Proofs.Text.Lines
import CallManual.Proofs.Text.Nesting
import CallManual.Proofs.Text.Utf8
import CallManual.Proofs.Host.Yields
import CallManual.Proofs.Parameter.Words
import CallManual.Proofs.Parameter.Reading
import CallManual.Proofs.Declaration.Respacing
import CallManual.Proofs.Declaration.Splitting
import CallManual.Proofs.Declaration.Reading
import CallManual.Proofs.Declaration.RoundTrip
import CallManual.Proofs.Declaration.Selection
import CallManual.Proofs.Page.Block
import CallManual.Proofs.Page.Joining
import CallManual.Proofs.Page.Context
import CallManual.Proofs.Resolution.Wrapped
import CallManual.Proofs.Resolution.Context
import CallManual.Proofs.Resolution.Report
import CallManual.Proofs.Resolution.Lookup
import CallManual.Proofs.Resolution.Schedule
import CallManual.Proofs.Json.Token
import CallManual.Proofs.Json.Reading
import CallManual.Proofs.Record.Spelling
import CallManual.Proofs.Record.Parameter
import CallManual.Proofs.Record.Resolution
import CallManual.Proofs.Record.Persistence
import CallManual.Proofs.CommandLine.ResultFile
import CallManual.Proofs.Parameter.RoundTrip
import CallManual.Proofs.Declaration.Grammar
import CallManual.Proofs.Settings.Tidy
import CallManual.Proofs.Settings.Changes
import CallManual.Proofs.Resolution.Provenance
import CallManual.Proofs.Declaration.Choice
import CallManual.Proofs.Page.Limit
import CallManual.Proofs.Page.Comments
import CallManual.Proofs.Resolution.Overstruck
import CallManual.Proofs.Text.Spaces
import CallManual.Proofs.Declaration.Spacing
import CallManual.Proofs.Declaration.Blanks
import CallManual.Proofs.Declaration.Callbacks
import CallManual.Proofs.Availability.Placement
import CallManual.Proofs.Settings.Layers
import CallManual.Proofs.Text.Identifier
import CallManual.Proofs.Availability.Listing
import CallManual.Proofs.Declaration.Order
import CallManual.Proofs.Host.Tree
import CallManual.Proofs.Page.Directory
import CallManual.Proofs.Host.Writing
import CallManual.Proofs.Host.Machine
import CallManual.Proofs.Resolution.Directory
import CallManual.Proofs.CommandLine.Handover
import CallManual.Proofs.CommandLine.Libraries
import CallManual.Proofs.Availability.Precedence
import CallManual.Proofs.Settings.Discovery
import CallManual.Proofs.CommandLine.Order
