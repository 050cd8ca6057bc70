import Scenery.Cli.Arguments
import Scenery.Cli.Outcome
import Scenery.Cli.Report
import Scenery.Cli.Style
import Scenery.Decimal.Binary
import Scenery.Decimal.Layout
import Scenery.Decimal.Reading
import Scenery.Decimal.Shortest
import Scenery.Document
import Scenery.Graph.Basic
import Scenery.Graph.Links
import Scenery.Graph.NodeSet
import Scenery.Graph.Walk
import Scenery.Json.Basic
import Scenery.Json.Encode
import Scenery.Json.Fault
import Scenery.Json.Lexeme
import Scenery.Json.Numeral
import Scenery.Json.Reading
import Scenery.Json.Writing
import Scenery.Keyed
import Scenery.Main
import Scenery.Matching
import Scenery.Node
import Scenery.Notice
import Scenery.Proofs.Building
import Scenery.Proofs.Forest
import Scenery.Scene.Basic
import Scenery.Scene.InPlace
import Scenery.Scene.Load
import Scenery.Selector.Accepts
import Scenery.Selector.Alphabet
import Scenery.Selector.Basic
import Scenery.Selector.Compile
import Scenery.Selector.Cursor
import Scenery.Selector.Escape
import Scenery.Selector.Literal
import Scenery.Selector.Name
import Scenery.Selector.Numeral
import Scenery.Selector.Scan
import Scenery.Selector.Token
import Scenery.Text.GraphemeExtend
import Scenery.Text.Quoted
import Scenery.Text.Ranges
import Scenery.Text.Search
import Scenery.Text.Unprintable
import Scenery.Text.UpperCase
import Scenery.Value
import Scenery.Proofs.Brackets
import Scenery.Proofs.Numerals
import Scenery.Proofs.Search
import Scenery.Proofs.Selecting
import Scenery.Proofs.Canonical
import Scenery.Proofs.Chunks
import Scenery.Proofs.Compilable
import Scenery.Proofs.Composing
import Scenery.Proofs.Loading
import Scenery.Proofs.Growing
import Scenery.Proofs.Escaping
import Scenery.Proofs.Separating
import Scenery.Proofs.Paths
import Scenery.Proofs.Legible
import Scenery.Proofs.Root
import Scenery.Proofs.Reporting
import Scenery.Proofs.Renumbering
import Scenery.Proofs.Advancing
import Scenery.Proofs.Appending
import Scenery.Proofs.Visiting
import Scenery.Proofs.Ordering
import Scenery.Proofs.Changing
import Scenery.Proofs.LineEnds
import Scenery.Proofs.Comparing
import Scenery.Proofs.Streams
import Scenery.Proofs.Requoting
import Scenery.Proofs.Rendering
import Scenery.Text.ByteOrder
import Scenery.Proofs.Literals
import Scenery.Proofs.Numbering
import Scenery.Proofs.Warning
import Scenery.Proofs.Skipping
import Scenery.Proofs.Filtering
import Scenery.Proofs.Finding
import Scenery.Proofs.Listing
import Scenery.Proofs.Spelling
import Scenery.Proofs.Reordering
