import Deckwright.Text.Quoted
import Deckwright.Text.Blank
import Deckwright.Text.Lines
import Deckwright.Text.Lowercase
import Deckwright.Number.Floating
import Deckwright.Number.Shortest
import Deckwright.Json.Basic
import Deckwright.Json.Numeral
import Deckwright.Json.Printer
import Deckwright.Json.Reader
import Deckwright.Context
import Deckwright.Sample
import Deckwright.Tool
import Deckwright.Deck.Basic
import Deckwright.Deck.Codec
import Deckwright.Deck.Footnotes
import Deckwright.Deck.Outline
import Deckwright.Markdown.Block
import Deckwright.Message
import Deckwright.Text.Name
import Deckwright.Toml.Basic
import Deckwright.Toml.Scalar
import Deckwright.Toml.Reader
import Deckwright.Definitions
import Deckwright.Files
import Deckwright.Document.Draft
import Deckwright.Document.Reading
import Deckwright.Request.Basic
import Deckwright.Request.Codec
import Deckwright.SystemText
import Deckwright.Config
import Deckwright.Grader
import Deckwright.Telemetry.Transport
import Deckwright.Builder
import Deckwright.Telemetry.Call
import Deckwright.Telemetry.Engine
import Deckwright.Url.Encoding
import Deckwright.Url.Host
import Deckwright.Url.Basic
import Deckwright.Registry.Basic
import Deckwright.Registry.Http
import Deckwright.Registry.Script
import Deckwright.Disk.Tree
import Deckwright.Registry.Store
import Deckwright.Command.Assignment
import Deckwright.Command.Basic
import Deckwright.Command.Options
import Deckwright.Command.Run
import Deckwright.Command.Session
import Deckwright.CommandLine.Help
import Deckwright.CommandLine.Scan
import Deckwright.CommandLine.Ending
import Deckwright.Main
import Deckwright.Proofs.Listing
import Deckwright.Proofs.Expansion
import Deckwright.Proofs.Growth
import Deckwright.Proofs.Preorder
import Deckwright.Proofs.Standing
import Deckwright.Proofs.Readings
import Deckwright.Proofs.Nesting
import Deckwright.Proofs.Scopes
import Deckwright.Proofs.Marks
import Deckwright.Proofs.ContextOrder
import Deckwright.Proofs.Lines
import Deckwright.Proofs.Canonical
import Deckwright.Proofs.Chunks
import Deckwright.Proofs.Inlines
import Deckwright.Proofs.ReadingBack
import Deckwright.Proofs.Rebuilding
import Deckwright.Proofs.RoundTrip
import Deckwright.Proofs.EmbedGraph
import Deckwright.Proofs.OpenDocuments
import Deckwright.Proofs.Paths
import Deckwright.Proofs.SoleEmbed
import Deckwright.Proofs.BuiltContext
import Deckwright.Proofs.Everywhere
import Deckwright.Proofs.OrderedMaps
import Deckwright.Proofs.PieceTexts
import Deckwright.Proofs.SampleBinding
import Deckwright.Proofs.Gate
import Deckwright.Proofs.Rewording
import Deckwright.Proofs.Naming
import Deckwright.Proofs.WellFormed
import Deckwright.Proofs.Appended
import Deckwright.Proofs.Faults
import Deckwright.Proofs.Replay
import Deckwright.Proofs.Blocks
import Deckwright.Proofs.Continuation
import Deckwright.Proofs.Overriding
import Deckwright.Proofs.Detaching
import Deckwright.Proofs.GradedContext
import Deckwright.Proofs.LeafTexts
import Deckwright.Proofs.Retention
import Deckwright.Proofs.Syncing
import Deckwright.Proofs.Relevance
import Deckwright.Proofs.Passages
import Deckwright.Proofs.Records
import Deckwright.Proofs.Steps
import Deckwright.Proofs.Storing
import Deckwright.Proofs.SortedWalk
import Deckwright.Proofs.Boundaries
import Deckwright.Proofs.Fences
import Deckwright.Proofs.PlainImages
import Deckwright.Proofs.Selection
import Deckwright.Proofs.Bullets
import Deckwright.Proofs.Defaults
import Deckwright.Proofs.ContextSources
import Deckwright.Proofs.Settings
import Deckwright.Proofs.PercentEncoding
import Deckwright.Proofs.PushedSegments
import Deckwright.Proofs.DeckAddresses
import Deckwright.Proofs.SampleShapes
import Deckwright.Proofs.Summaries
import Deckwright.Proofs.TableKeys
import Deckwright.Proofs.Restriction
import Deckwright.Proofs.PickedDefinitions
import Deckwright.Proofs.DefinitionEmbeds
import Deckwright.Proofs.Lowercase
import Deckwright.Proofs.LookupNames
import Deckwright.Proofs.Spellings
import Deckwright.Proofs.MarkerMatches
import Deckwright.Proofs.HeadingNames
