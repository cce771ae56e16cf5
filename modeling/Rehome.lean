import Rehome.Command.Arguments
import Rehome.Command.Run
import Rehome.Config.Basic
import Rehome.Config.Error
import Rehome.Config.Load
import Rehome.Data.Assoc
import Rehome.Decimal.Binary64
import Rehome.Decimal.Shortest
import Rehome.Document.Files
import Rehome.Document.Format
import Rehome.Document.Json
import Rehome.Document.Mapping
import Rehome.Document.Node
import Rehome.Document.Parse
import Rehome.Document.Path
import Rehome.Document.Terms
import Rehome.Ident
import Rehome.Json.Basic
import Rehome.Json.Number
import Rehome.Json.Parser
import Rehome.Json.Printer
import Rehome.Label.Document
import Rehome.Label.Slots
import Rehome.Main
import Rehome.Mapping.Basic
import Rehome.Mapping.Equivalence
import Rehome.Mapping.Error
import Rehome.Mapping.Moves
import Rehome.Mapping.Overrides
import Rehome.Migration.Client
import Rehome.Migration.Entity
import Rehome.Migration.Error
import Rehome.Migration.Memory
import Rehome.Migration.Remote
import Rehome.Migration.Session
import Rehome.Place.Collect
import Rehome.Place.Trail
import Rehome.Place.Traversal
import Rehome.Place.Walk
import Rehome.Proofs.Data.Assoc
import Rehome.Proofs.Data.Except
import Rehome.Proofs.Data.Sorted
import Rehome.Proofs.Decimal.Rounding
import Rehome.Proofs.Decimal.Shortest
import Rehome.Proofs.Json.Distinct
import Rehome.Proofs.Json.Doubles
import Rehome.Proofs.Json.Frame
import Rehome.Proofs.Json.Position
import Rehome.Proofs.Json.Results
import Rehome.Proofs.Json.RoundTrip
import Rehome.Proofs.Json.Settled
import Rehome.Proofs.Json.Similar
import Rehome.Proofs.Json.Tokens
import Rehome.Proofs.Json.Update
import Rehome.Proofs.Label.Effects
import Rehome.Proofs.Label.Replacement
import Rehome.Proofs.Label.Scheme
import Rehome.Proofs.Label.Spots
import Rehome.Proofs.Label.Texts
import Rehome.Proofs.Mapping.Built
import Rehome.Proofs.Mapping.Insertions
import Rehome.Proofs.Mapping.Listed
import Rehome.Proofs.Mapping.Resolution
import Rehome.Proofs.Mapping.Settled
import Rehome.Proofs.Mapping.Stability
import Rehome.Proofs.Migration.Acyclic
import Rehome.Proofs.Migration.Again
import Rehome.Proofs.Migration.Bookkeeping
import Rehome.Proofs.Migration.Carried
import Rehome.Proofs.Migration.Chain
import Rehome.Proofs.Migration.Culprit
import Rehome.Proofs.Migration.Depth
import Rehome.Proofs.Migration.Destination
import Rehome.Proofs.Migration.DryRun
import Rehome.Proofs.Migration.Failures
import Rehome.Proofs.Migration.Faithful
import Rehome.Proofs.Migration.Frame
import Rehome.Proofs.Migration.History
import Rehome.Proofs.Migration.Independence
import Rehome.Proofs.Migration.Memory
import Rehome.Proofs.Migration.Nesting
import Rehome.Proofs.Migration.Order
import Rehome.Proofs.Migration.Passage
import Rehome.Proofs.Migration.Planned
import Rehome.Proofs.Migration.Relabelling
import Rehome.Proofs.Migration.Requests
import Rehome.Proofs.Migration.Resuming
import Rehome.Proofs.Migration.Steps
import Rehome.Proofs.Migration.Translation
import Rehome.Proofs.Migration.Vocabulary
import Rehome.Proofs.Migration.Watching
import Rehome.Proofs.Place.Compatible
import Rehome.Proofs.Place.Loop
import Rehome.Proofs.Place.Nesting
import Rehome.Proofs.Place.Reach
import Rehome.Proofs.Place.Settled
import Rehome.Proofs.Place.Stops
import Rehome.Proofs.Place.Traversal
import Rehome.Proofs.Place.Visits
import Rehome.Proofs.Query.Codec
import Rehome.Proofs.Query.Source
import Rehome.Proofs.Reference.Blame
import Rehome.Proofs.Reference.CardsRead
import Rehome.Proofs.Reference.Clauses
import Rehome.Proofs.Reference.Clicks
import Rehome.Proofs.Reference.Columns
import Rehome.Proofs.Reference.Destination
import Rehome.Proofs.Reference.Filters
import Rehome.Proofs.Reference.Frame
import Rehome.Proofs.Reference.Keys
import Rehome.Proofs.Reference.Mentions
import Rehome.Proofs.Reference.Metadata
import Rehome.Proofs.Reference.Needs
import Rehome.Proofs.Reference.Results
import Rehome.Proofs.Reference.Settled.Place
import Rehome.Proofs.Reference.Settled.Query
import Rehome.Proofs.Reference.Settled.Settings
import Rehome.Proofs.Reference.Sites
import Rehome.Proofs.Reference.Slots
import Rehome.Proofs.Reference.Sources
import Rehome.Proofs.Reference.Substitution
import Rehome.Proofs.Reference.TableColumns
import Rehome.Proofs.Reference.Texts
import Rehome.Proofs.Reference.Translated
import Rehome.Proofs.Text.Blank
import Rehome.Proofs.Text.Casing
import Rehome.Proofs.Text.Words
import Rehome.Proofs.Translator.Again
import Rehome.Proofs.Translator.Asking
import Rehome.Proofs.Translator.Cached
import Rehome.Proofs.Translator.Consultation
import Rehome.Proofs.Translator.Inquiries
import Rehome.Proofs.Translator.Margins
import Rehome.Proofs.Translator.Precedence
import Rehome.Proofs.Translator.Steady
import Rehome.Proofs.Translator.Terms
import Rehome.Proofs.Translator.Unaided
import Rehome.Proofs.Translator.Untranslated
import Rehome.Query.Clause
import Rehome.Query.Source
import Rehome.Reference.Card
import Rehome.Reference.Place
import Rehome.Reference.Plan
import Rehome.Reference.Query
import Rehome.Reference.Renaming
import Rehome.Reference.Settings
import Rehome.Request
import Rehome.Sample
import Rehome.Text.Blank
import Rehome.Text.Casing
import Rehome.Text.Casing.Context
import Rehome.Text.Casing.Mapping
import Rehome.Translator.Basic
import Rehome.Translator.Client
import Rehome.Translator.Error
import Rehome.Translator.Language
import Rehome.Translator.Provider
import Rehome.Translator.Scripted
import Rehome.Translator.Terms
import Rehome.Yaml.Cursor
import Rehome.Yaml.Parser
import Rehome.Yaml.Scalar
import Rehome.Yaml.Token
