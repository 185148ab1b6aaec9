import HardcodedText.Check.Calls
import HardcodedText.Check.Exposure
import HardcodedText.Check.Markup
import HardcodedText.Check.Scan
import HardcodedText.Check.Scope
import HardcodedText.CommandLine.Command
import HardcodedText.CommandLine.Execution
import HardcodedText.CommandLine.Grammar
import HardcodedText.CommandLine.Usage
import HardcodedText.Discovery
import HardcodedText.Finding
import HardcodedText.Json.Basic
import HardcodedText.Json.Reader
import HardcodedText.Json.Writer
import HardcodedText.Log
import HardcodedText.Main
import HardcodedText.Markup.CharacterReference
import HardcodedText.Markup.CharacterReference.Names
import HardcodedText.Node.Basic
import HardcodedText.Node.Display
import HardcodedText.Node.OfTree
import HardcodedText.Node.Walk
import HardcodedText.Number.Binary64
import HardcodedText.Number.Decimal
import HardcodedText.Number.Integer
import HardcodedText.Pattern.Braces
import HardcodedText.Pattern.Regex.Basic
import HardcodedText.Pattern.Regex.CharClass
import HardcodedText.Pattern.Regex.Escape
import HardcodedText.Pattern.Regex.Fault
import HardcodedText.Pattern.Regex.Input
import HardcodedText.Pattern.Regex.Match
import HardcodedText.Pattern.Regex.Reader
import HardcodedText.Pattern.Wildcard
import HardcodedText.Report.CodeFrame
import HardcodedText.Report.Csv
import HardcodedText.Report.Diagnostic
import HardcodedText.Report.Files
import HardcodedText.Report.LineCache
import HardcodedText.Report.Listing
import HardcodedText.Report.RunReport
import HardcodedText.Report.Timestamp
import HardcodedText.Rule.AllowPattern
import HardcodedText.Rule.CallPattern
import HardcodedText.Rule.ConfigFile
import HardcodedText.Rule.Configuration
import HardcodedText.Rule.Options
import HardcodedText.Rule.Policy
import HardcodedText.Run
import HardcodedText.Session
import HardcodedText.Source.Document
import HardcodedText.Source.Import
import HardcodedText.Source.Language
import HardcodedText.Source.StringLiteral
import HardcodedText.Source.Tree
import HardcodedText.Source.TreeJson
import HardcodedText.SuggestedKey
import HardcodedText.Text.Blank
import HardcodedText.Text.Identifier
import HardcodedText.Text.LetterCase
import HardcodedText.Text.LetterCase.Table
import HardcodedText.Text.Printable
import HardcodedText.Text.Quoted
import HardcodedText.Text.Utf16
import HardcodedText.Text.Utf8
import HardcodedText.Text.WordChar
import HardcodedText.Workspace.Basic
import HardcodedText.Workspace.Glob
import HardcodedText.Workspace.Path
import HardcodedText.Workspace.Sidecar
import HardcodedText.Proofs.Check.CallPlaces
import HardcodedText.Proofs.Check.Calls
import HardcodedText.Proofs.Check.ExactlyOnce
import HardcodedText.Proofs.Check.Exposure
import HardcodedText.Proofs.Check.Independence
import HardcodedText.Proofs.Check.Layout
import HardcodedText.Proofs.Check.MarkupPlaces
import HardcodedText.Proofs.Check.Monotone
import HardcodedText.Proofs.Check.Origin
import HardcodedText.Proofs.Check.Quoting
import HardcodedText.Proofs.Check.Relocate
import HardcodedText.Proofs.Check.Rules
import HardcodedText.Proofs.Check.Scan
import HardcodedText.Proofs.Check.SourceOrder
import HardcodedText.Proofs.Check.Suppression
import HardcodedText.Proofs.Check.Translation
import HardcodedText.Proofs.Check.Visible
import HardcodedText.Proofs.Discovery
import HardcodedText.Proofs.Discovery.Listing
import HardcodedText.Proofs.Discovery.StandardExcludes
import HardcodedText.Proofs.Except
import HardcodedText.Proofs.Finding
import HardcodedText.Proofs.Finding.FirstInOrder
import HardcodedText.Proofs.Lookup
import HardcodedText.Proofs.Node.DocumentOrder
import HardcodedText.Proofs.Node.Layout
import HardcodedText.Proofs.Node.OfTree
import HardcodedText.Proofs.Node.Pieces
import HardcodedText.Proofs.Node.Relocate
import HardcodedText.Proofs.Node.Template
import HardcodedText.Proofs.Node.TextRun
import HardcodedText.Proofs.Node.Walk
import HardcodedText.Proofs.Pattern.Braces
import HardcodedText.Proofs.Pattern.Braces.Grammar
import HardcodedText.Proofs.Pattern.Braces.Unpaired
import HardcodedText.Proofs.Pattern.Regex.Match
import HardcodedText.Proofs.Pattern.Regex.Reader
import HardcodedText.Proofs.Pattern.Wildcard
import HardcodedText.Proofs.Report.ByFile
import HardcodedText.Proofs.Report.CodeFrame
import HardcodedText.Proofs.Report.CodeFrame.Alignment
import HardcodedText.Proofs.Report.Csv
import HardcodedText.Proofs.Report.LineCache
import HardcodedText.Proofs.Rule.AllowPattern
import HardcodedText.Proofs.Rule.CallPattern
import HardcodedText.Proofs.Rule.Options
import HardcodedText.Proofs.Rule.Options.Independence
import HardcodedText.Proofs.Rule.Policy
import HardcodedText.Proofs.Rule.Policy.Inheritance
import HardcodedText.Proofs.Rule.Policy.Qualified
import HardcodedText.Proofs.Run.ByFile
import HardcodedText.Proofs.Run.FileWise
import HardcodedText.Proofs.Run.Frames
import HardcodedText.Proofs.Run.Pool
import HardcodedText.Proofs.Run.Settled
import HardcodedText.Proofs.Run.Verdict
import HardcodedText.Proofs.Session.Repeat
import HardcodedText.Proofs.Session.WriteOnce
import HardcodedText.Proofs.Source.Fault
import HardcodedText.Proofs.Source.Layout
import HardcodedText.Proofs.Source.Lines
import HardcodedText.Proofs.Source.Places
import HardcodedText.Proofs.Source.Position
import HardcodedText.Proofs.Source.Range
import HardcodedText.Proofs.Source.Shift
import HardcodedText.Proofs.Source.StringLiteral
import HardcodedText.Proofs.Source.Tree
import HardcodedText.Proofs.Source.WellFormed
import HardcodedText.Proofs.SuggestedKey
import HardcodedText.Proofs.Text.Blank
import HardcodedText.Proofs.Text.LetterCase
import HardcodedText.Proofs.Text.Utf16
import HardcodedText.Proofs.Text.Utf8
import HardcodedText.Proofs.Workspace.Basic
import HardcodedText.Proofs.Workspace.Glob
import HardcodedText.Proofs.Workspace.Path
