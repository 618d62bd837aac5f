import NotebookPages.Command.Arguments
import NotebookPages.Command.Batch
import NotebookPages.Command.Check
import NotebookPages.Command.Configure
import NotebookPages.Command.Convert
import NotebookPages.Command.Generate
import NotebookPages.Command.Info
import NotebookPages.Command.Outcome
import NotebookPages.Command.Preferences
import NotebookPages.Command.Repair
import NotebookPages.Command.Request
import NotebookPages.Command.Run
import NotebookPages.Decimal.Binary64
import NotebookPages.Decimal.Shortest
import NotebookPages.Document.Diagnosis
import NotebookPages.Document.Fields
import NotebookPages.Document.Header
import NotebookPages.Json.Number
import NotebookPages.Json.Reader
import NotebookPages.Json.Value
import NotebookPages.Main
import NotebookPages.Markup.Dialect
import NotebookPages.Markup.Fence
import NotebookPages.Markup.Lexeme
import NotebookPages.Markup.Pairing
import NotebookPages.Markup.Piece
import NotebookPages.Markup.Problem
import NotebookPages.Markup.Prose
import NotebookPages.Markup.Sanitize
import NotebookPages.Markup.Tag
import NotebookPages.Notebook.Basic
import NotebookPages.Notebook.Decode
import NotebookPages.Notebook.Summary
import NotebookPages.Page.Body
import NotebookPages.Page.Convert
import NotebookPages.Page.Options
import NotebookPages.Path.Basic
import NotebookPages.Path.Pattern
import NotebookPages.Proofs.Command.Describing
import NotebookPages.Proofs.Command.Failures
import NotebookPages.Proofs.Command.Order
import NotebookPages.Proofs.Command.Plan
import NotebookPages.Proofs.Command.Repairs
import NotebookPages.Proofs.Command.Running
import NotebookPages.Proofs.Command.Stopping
import NotebookPages.Proofs.Command.Unforced
import NotebookPages.Proofs.Command.Writers
import NotebookPages.Proofs.Document.Boundary
import NotebookPages.Proofs.Document.Checking
import NotebookPages.Proofs.Document.FieldValues
import NotebookPages.Proofs.Document.Generated
import NotebookPages.Proofs.Document.Listing
import NotebookPages.Proofs.Document.Reporting
import NotebookPages.Proofs.Document.Splitting
import NotebookPages.Proofs.Markup.Autolinks
import NotebookPages.Proofs.Markup.Backticks
import NotebookPages.Proofs.Markup.Balance
import NotebookPages.Proofs.Markup.Braces
import NotebookPages.Proofs.Markup.CodeBlocks
import NotebookPages.Proofs.Markup.Dashes
import NotebookPages.Proofs.Markup.DataImages
import NotebookPages.Proofs.Markup.FencedBlocks
import NotebookPages.Proofs.Markup.FencedLines
import NotebookPages.Proofs.Markup.Fences
import NotebookPages.Proofs.Markup.Found
import NotebookPages.Proofs.Markup.Fronts
import NotebookPages.Proofs.Markup.Idempotence
import NotebookPages.Proofs.Markup.InlineCode
import NotebookPages.Proofs.Markup.Lexemes
import NotebookPages.Proofs.Markup.LineLimit
import NotebookPages.Proofs.Markup.LineStarts
import NotebookPages.Proofs.Markup.Locality
import NotebookPages.Proofs.Markup.LongLines
import NotebookPages.Proofs.Markup.Measures
import NotebookPages.Proofs.Markup.Nested
import NotebookPages.Proofs.Markup.Overruns
import NotebookPages.Proofs.Markup.ProseLines
import NotebookPages.Proofs.Markup.ReadBack
import NotebookPages.Proofs.Markup.Reading
import NotebookPages.Proofs.Markup.Reread
import NotebookPages.Proofs.Markup.SecondPass
import NotebookPages.Proofs.Markup.Shown
import NotebookPages.Proofs.Markup.SimpleText
import NotebookPages.Proofs.Markup.Spelling
import NotebookPages.Proofs.Markup.Stability
import NotebookPages.Proofs.Markup.TagLocality
import NotebookPages.Proofs.Markup.TagRoundTrip
import NotebookPages.Proofs.Markup.TagWriting
import NotebookPages.Proofs.Markup.Tokens
import NotebookPages.Proofs.Markup.Trimmed
import NotebookPages.Proofs.Markup.Unchanged
import NotebookPages.Proofs.Markup.Welding
import NotebookPages.Proofs.Notebook.Decoding
import NotebookPages.Proofs.Notebook.Descriptions
import NotebookPages.Proofs.Notebook.Prose
import NotebookPages.Proofs.Notebook.Respelling
import NotebookPages.Proofs.Notebook.SharedProse
import NotebookPages.Proofs.Notebook.Titles
import NotebookPages.Proofs.Page.Accounting
import NotebookPages.Proofs.Page.Blocks
import NotebookPages.Proofs.Page.CheckedPages
import NotebookPages.Proofs.Page.Composition
import NotebookPages.Proofs.Page.Destination
import NotebookPages.Proofs.Page.Headed
import NotebookPages.Proofs.Page.Isolation
import NotebookPages.Proofs.Page.Placement
import NotebookPages.Proofs.Page.Sources
import NotebookPages.Proofs.Page.Visible
import NotebookPages.Proofs.Path.Names
import NotebookPages.Proofs.Path.Parents
import NotebookPages.Proofs.Path.Walks
import NotebookPages.Proofs.Reference.Blocks
import NotebookPages.Proofs.Reference.CheckedPages
import NotebookPages.Proofs.Reference.Destinations
import NotebookPages.Proofs.Reference.Inside
import NotebookPages.Proofs.Reference.Links
import NotebookPages.Proofs.Reference.Texts
import NotebookPages.Proofs.Results
import NotebookPages.Proofs.Settings.Layers
import NotebookPages.Proofs.Storage.Apart
import NotebookPages.Proofs.Storage.Bystanders
import NotebookPages.Proofs.Storage.Directories
import NotebookPages.Proofs.Storage.Making
import NotebookPages.Proofs.Storage.Nesting
import NotebookPages.Proofs.Storage.Places
import NotebookPages.Proofs.Storage.Publishing
import NotebookPages.Proofs.Storage.Rewriting
import NotebookPages.Proofs.Storage.Uncovering
import NotebookPages.Proofs.Text.Cut
import NotebookPages.Proofs.Text.Lines
import NotebookPages.Proofs.Text.Padding
import NotebookPages.Proofs.Text.Phrase
import NotebookPages.Proofs.Text.Sequences
import NotebookPages.Proofs.Text.Slug
import NotebookPages.Proofs.Text.Trim
import NotebookPages.Proofs.Text.Words
import NotebookPages.Proofs.Yaml.BlockLines
import NotebookPages.Proofs.Yaml.Plain
import NotebookPages.Proofs.Yaml.Quoted
import NotebookPages.Reference.Manifest
import NotebookPages.Reference.Page
import NotebookPages.Settings.Basic
import NotebookPages.Settings.File
import NotebookPages.Storage.FileTree
import NotebookPages.Storage.Publish
import NotebookPages.Storage.Search
import NotebookPages.Storage.Source
import NotebookPages.Text.Basic
import NotebookPages.Text.Case
import NotebookPages.Text.CaseTable
import NotebookPages.Text.Failure
import NotebookPages.Text.Phrase
import NotebookPages.Text.QuoteTable
import NotebookPages.Text.Quoted
import NotebookPages.Text.Terminal
import NotebookPages.Text.Utf8
import NotebookPages.Text.Vocabulary
import NotebookPages.Toml.Printer
import NotebookPages.Toml.Reader
import NotebookPages.Toml.Scalar
import NotebookPages.Toml.Value
import NotebookPages.Yaml.Node
import NotebookPages.Yaml.Scalar
import NotebookPages.Yaml.Token
import NotebookPages.Yaml.Tokens
import NotebookPages.Yaml.Value
