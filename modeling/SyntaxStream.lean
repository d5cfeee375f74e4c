import SyntaxStream.BatchStream
import SyntaxStream.Main
import SyntaxStream.Proofs.Transform.Incremental
import SyntaxStream.Proofs.Transform.Retraction
import SyntaxStream.Proofs.Transform.Stable
import SyntaxStream.Service
import SyntaxStream.Wire.Config
import SyntaxStream.Proofs.Highlight.Block
import SyntaxStream.Proofs.Highlight.Lines
import SyntaxStream.Proofs.Json.Lexing
import SyntaxStream.Proofs.Json.Reading
import SyntaxStream.Proofs.Text.Form
import SyntaxStream.Proofs.Wire.Request
import SyntaxStream.Proofs.Highlight.Cache
import SyntaxStream.Proofs.Service.Request
import SyntaxStream.Proofs.Wire.Result
import SyntaxStream.Proofs.Service.RoundTrip
import SyntaxStream.Proofs.Highlight.Interleaving
import SyntaxStream.Proofs.Highlight.Breaker
import SyntaxStream.Proofs.Session.Cleanup
import SyntaxStream.Proofs.Session.Mirror
import SyntaxStream.Proofs.Session.Restart
import SyntaxStream.Proofs.Session.Consumer
import SyntaxStream.Proofs.Transform.Recovery
import SyntaxStream.Proofs.Segment.Plain
import SyntaxStream.Proofs.Transform.PlainText
import SyntaxStream.Proofs.Service.Methods
import SyntaxStream.Proofs.Theme.Listing
import SyntaxStream.Proofs.Highlight.Threshold
import SyntaxStream.Proofs.Highlight.Html
import SyntaxStream.Proofs.Highlight.Sharing
import SyntaxStream.Proofs.Cli.Streaming
import SyntaxStream.Proofs.Segment.Innermost
import SyntaxStream.Proofs.Highlight.Outcome
import SyntaxStream.Proofs.Highlight.Styles
import SyntaxStream.Proofs.Highlight.Cascade
import SyntaxStream.Proofs.BatchStream
import SyntaxStream.Proofs.Session.FirstStart
import SyntaxStream.Proofs.Theme.Coloring
import SyntaxStream.Proofs.Segment.Bounds
import SyntaxStream.Proofs.Segment.Soundness
import SyntaxStream.Proofs.Text.Numeral
import SyntaxStream.Proofs.Markdown.Requests
import SyntaxStream.Proofs.Markdown.Extraction
import SyntaxStream.Proofs.Markdown.Rests
import SyntaxStream.Proofs.Markdown.Events
import SyntaxStream.Proofs.Plugin
import SyntaxStream.Proofs.Segment.Locality
import SyntaxStream.Proofs.Transform.Snapshots
import SyntaxStream.Proofs.ChunkReader.Release
