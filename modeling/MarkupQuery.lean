import MarkupQuery.Query.Batch
import MarkupQuery.Interchange.Load
import MarkupQuery.Proofs.Loop
import MarkupQuery.Proofs.Node.Preorder
import MarkupQuery.Proofs.Query.Levels
import MarkupQuery.Proofs.Entries
import MarkupQuery.Proofs.Json.Normalize
import MarkupQuery.Proofs.Interchange.Decode
import MarkupQuery.Proofs.Interchange.Normalize
import MarkupQuery.Proofs.Interchange.ValueRoundTrip
import MarkupQuery.Proofs.Json.ReadBack
import MarkupQuery.Proofs.Interchange.ReadBack
import MarkupQuery.Proofs.Interchange.Built
import MarkupQuery.Proofs.Interchange.TextRoundTrip
import MarkupQuery.Proofs.Json.Read
import MarkupQuery.Proofs.Json.Skip
import MarkupQuery.Proofs.Interchange.Routes
import MarkupQuery.Proofs.Interchange.Runs
import MarkupQuery.Proofs.Interchange.Height
import MarkupQuery.Proofs.Interchange.Grammar
import MarkupQuery.Proofs.Json.TextRoundTrip
import MarkupQuery.Proofs.Interchange.Lists
import MarkupQuery.Proofs.Query.DocumentOrder
import MarkupQuery.Proofs.Interchange.FieldOrder
import MarkupQuery.Proofs.Interchange.Identity
import MarkupQuery.Proofs.Interchange.TwoTexts
import MarkupQuery.Proofs.Json.Joined
import MarkupQuery.Proofs.Json.TextGrammar
import MarkupQuery.Proofs.Interchange.Extras
import MarkupQuery.Proofs.Interchange.Indifference
import MarkupQuery.Proofs.Query.Depth
import MarkupQuery.Proofs.Query.LevelOrder
import MarkupQuery.Proofs.Query.Text
import MarkupQuery.Proofs.Query.Chained
import MarkupQuery.Proofs.Query.Pieces
import MarkupQuery.Proofs.Query.Meaning
import MarkupQuery.Proofs.Json.Nesting
import MarkupQuery.Proofs.Interchange.ListHeight
import MarkupQuery.Proofs.Json.Paths
import MarkupQuery.Proofs.Interchange.Visits
import MarkupQuery.Proofs.Interchange.FirstOffence
import MarkupQuery.Proofs.Query.Course
import MarkupQuery.Proofs.Query.Narrowing
import MarkupQuery.Proofs.Query.Schedules
import MarkupQuery.Proofs.Interchange.LastWrite
import MarkupQuery.Proofs.Text.Quoted
import MarkupQuery.Proofs.Interchange.Messages
