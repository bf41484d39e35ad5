import DocPress.Comment.Block
import DocPress.Text.Case
import DocPress.Text.Quoted
import DocPress.Decimal.Fixed
import DocPress.Decimal.Nearest
import DocPress.Json.Printer
import DocPress.Json.Reader
import DocPress.Model.Walk
import DocPress.Model.Workspace
import DocPress.Model.Description
import DocPress.Source.Unit
import DocPress.Text.Sentence
import DocPress.Source.Scanner
import DocPress.Html.Page
import DocPress.Html.Style
import DocPress.Config.File
import DocPress.Yaml.Value
import DocPress.Source.Pattern
import DocPress.Storage.Disk
import DocPress.Archive.Zip
import DocPress.Source.Load
import DocPress.Log.Logger
import DocPress.Log.Message
import DocPress.Press.Basic
import DocPress.Pdf.Generate
import DocPress.Cli.Run
import DocPress.Main
import DocPress.Proofs.Comment.Marker
import DocPress.Proofs.Comment.Normal
import DocPress.Proofs.Comment.Segmentation
import DocPress.Proofs.Comment.TagWord
import DocPress.Proofs.Comment.Tags
import DocPress.Proofs.Html.PageName
import DocPress.Proofs.Javadoc.Agreement
import DocPress.Proofs.Javadoc.Attachment
import DocPress.Proofs.Pdf.Layout
import DocPress.Proofs.Pdf.Wrap
import DocPress.Proofs.Press.Batch
import DocPress.Proofs.Text.Lines
import DocPress.Proofs.Text.LineEnds
import DocPress.Proofs.Text.Words
import DocPress.Proofs.Text.Sentence
import DocPress.Proofs.Xml.Counts
import DocPress.Proofs.Xml.Document
import DocPress.Proofs.Xml.Escape
import DocPress.Proofs.Xml.RoundTrip
import DocPress.Proofs.Xml.Tag
import DocPress.Proofs.Javadoc.Grouping
import DocPress.Proofs.Javadoc.Invisible
import DocPress.Proofs.Javadoc.Lexical
import DocPress.Proofs.Javadoc.Nesting
import DocPress.Proofs.Storage.PathOrder
import DocPress.Proofs.Source.Loading
import DocPress.Proofs.Html.Frame
import DocPress.Proofs.Model.Traversal
import DocPress.Proofs.Html.Shape
import DocPress.Proofs.Html.Link
import DocPress.Proofs.Html.DocumentSet
import DocPress.Proofs.Output.Documentation
import DocPress.Proofs.Press.Registry
import DocPress.Proofs.Press.Request
import DocPress.Proofs.Model.History
import DocPress.Proofs.Press.Building
import DocPress.Proofs.Comment.Composition
import DocPress.Proofs.Javadoc.Member
import DocPress.Proofs.Javadoc.MemberLine
import DocPress.Proofs.Javadoc.FieldLine
import DocPress.Proofs.Javadoc.Grounding
import DocPress.Proofs.Javadoc.Layout
import DocPress.Proofs.Comment.Conservation
import DocPress.Proofs.Docstring.Reading
import DocPress.Proofs.Docstring.Places
import DocPress.Proofs.Docstring.Grammar
import DocPress.Proofs.Docstring.Tree
import DocPress.Proofs.Docstring.Lines
import DocPress.Proofs.Docstring.Signature
import DocPress.Proofs.Fallible
import DocPress.Proofs.Config.Substitution
import DocPress.Proofs.Decimal.NotANumber
import DocPress.Proofs.Config.Sections
import DocPress.Proofs.Archive.Defect
import DocPress.Proofs.Source.Faults
import DocPress.Proofs.Decimal.Reduced
import DocPress.Proofs.Json.Quote
import DocPress.Proofs.Json.Number
import DocPress.Proofs.Json.Spelling
import DocPress.Proofs.Json.RoundTrip
import DocPress.Proofs.Log.Line
