import RamlCheck.Json.Reader
import RamlCheck.Json.Printer
import RamlCheck.Outline.Basic
import RamlCheck.File.Tree
import RamlCheck.Document.Reference
import RamlCheck.Validation
import RamlCheck.CommandLine.Program
import RamlCheck.Main
import RamlCheck.Proofs.Reader
import RamlCheck.Proofs.Listing
import RamlCheck.Proofs.Nesting
import RamlCheck.Proofs.Text.Lines
import RamlCheck.Proofs.Text.CarriageReturn
import RamlCheck.Proofs.Text.Numeral
import RamlCheck.Proofs.Text.Slice
import RamlCheck.Proofs.Text.LineFeed
import RamlCheck.Proofs.File.Path
import RamlCheck.Proofs.Yaml.Cells
import RamlCheck.Proofs.Yaml.Nesting
import RamlCheck.Proofs.Yaml.TokenPlace
import RamlCheck.Proofs.Yaml.EventPlace
import RamlCheck.Proofs.Yaml.Tree
import RamlCheck.Proofs.Yaml.Wording
import RamlCheck.Proofs.Yaml.Way
import RamlCheck.Proofs.Yaml.ComplaintPlace
import RamlCheck.Proofs.Yaml.Summary
import RamlCheck.Proofs.Outline.Distinct
import RamlCheck.Proofs.Outline.Nesting
import RamlCheck.Proofs.Outline.TokenFault
import RamlCheck.Proofs.Outline.Standing
import RamlCheck.Proofs.Outline.ScalarPlace
import RamlCheck.Proofs.Outline.TokenPlace
import RamlCheck.Proofs.Outline.Tree
import RamlCheck.Proofs.Outline.Wording
import RamlCheck.Proofs.Outline.EventPlace
import RamlCheck.Proofs.Outline.Keys
import RamlCheck.Proofs.Include.Advance
import RamlCheck.Proofs.Yaml.SingleQuoted
import RamlCheck.Proofs.Include.Pieces
import RamlCheck.Proofs.Include.Span
import RamlCheck.Proofs.Include.ByteWalk
import RamlCheck.Proofs.Include.ClosingQuote
import RamlCheck.Proofs.Include.ByteAgreement
import RamlCheck.Proofs.Include.Lossless
import RamlCheck.Proofs.Include.Quoting
import RamlCheck.Proofs.Include.Record
import RamlCheck.Proofs.Include.Walk
import RamlCheck.Proofs.Include.Settled
import RamlCheck.Proofs.Include.PlainText
import RamlCheck.Proofs.Include.Spot
import RamlCheck.Proofs.Include.Copied
import RamlCheck.Proofs.Include.BlockSibling
import RamlCheck.Proofs.Include.Continuation
import RamlCheck.Proofs.Include.Drift
import RamlCheck.Proofs.Include.Indentation
import RamlCheck.Proofs.Include.Opaque
import RamlCheck.Proofs.Document.Conversion
import RamlCheck.Proofs.Document.Entering
import RamlCheck.Proofs.Document.HeaderForm
import RamlCheck.Proofs.Document.Loading
import RamlCheck.Proofs.Document.KeyPlace
import RamlCheck.Proofs.Document.MessagePlace
import RamlCheck.Proofs.Document.Order
import RamlCheck.Proofs.Document.Payload
import RamlCheck.Proofs.Document.Standalone
import RamlCheck.Proofs.Document.Trail
import RamlCheck.Proofs.Document.MethodOrder
import RamlCheck.Proofs.Rule.Inlining
import RamlCheck.Proofs.Rule.Reading
import RamlCheck.Proofs.Document.Reading
import RamlCheck.Proofs.Rule.Registration
import RamlCheck.Proofs.Rule.StatusCode
import RamlCheck.Proofs.Rule.Structure
import RamlCheck.Proofs.Rule.Responses
import RamlCheck.Proofs.Rule.Spelling
import RamlCheck.Proofs.Rule.Emptiness
import RamlCheck.Proofs.Rule.Wording
import RamlCheck.Proofs.Document.Wording
import RamlCheck.Proofs.Document.EntryChecks
import RamlCheck.Proofs.Input.Asking
import RamlCheck.Proofs.Report.Sink
import RamlCheck.Proofs.Report.Calls
import RamlCheck.Proofs.Run.Steps
import RamlCheck.Proofs.Run.Strictness
import RamlCheck.Proofs.Run.Text
import RamlCheck.Proofs.Run.Truncation
import RamlCheck.Proofs.Validation
import RamlCheck.Proofs.Issue.Place
import RamlCheck.Proofs.Run.Included
import RamlCheck.Proofs.Run.Lines
import RamlCheck.Proofs.Run.Structured
