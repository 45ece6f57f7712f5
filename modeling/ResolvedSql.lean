import ResolvedSql.Calendar.Date
import ResolvedSql.Calendar.Timestamp
import ResolvedSql.CommandLine.Arguments
import ResolvedSql.CommandLine.Folder
import ResolvedSql.CommandLine.Run
import ResolvedSql.Config.Basic
import ResolvedSql.Config.File
import ResolvedSql.Decimal.Layout
import ResolvedSql.Decimal.Shortest
import ResolvedSql.Error
import ResolvedSql.Event
import ResolvedSql.Function.Body
import ResolvedSql.Function.Catalog
import ResolvedSql.Json.Basic
import ResolvedSql.Json.Decoder
import ResolvedSql.Json.Document
import ResolvedSql.Json.Numeral
import ResolvedSql.Json.Printer
import ResolvedSql.Json.Reader
import ResolvedSql.Keyed
import ResolvedSql.Literal
import ResolvedSql.Main
import ResolvedSql.NamePath
import ResolvedSql.Proofs.AnalyticScopes
import ResolvedSql.Proofs.Blank
import ResolvedSql.Proofs.BodyPass
import ResolvedSql.Proofs.BodyText
import ResolvedSql.Proofs.BodyTokens
import ResolvedSql.Proofs.CallableNames
import ResolvedSql.Proofs.ClauseOrder
import ResolvedSql.Proofs.Closure
import ResolvedSql.Proofs.ColumnOverrides
import ResolvedSql.Proofs.Conditions
import ResolvedSql.Proofs.Constants
import ResolvedSql.Proofs.CorrelationTable
import ResolvedSql.Proofs.Decoding
import ResolvedSql.Proofs.DerivedTables
import ResolvedSql.Proofs.EntryPoints
import ResolvedSql.Proofs.FragmentSurface
import ResolvedSql.Proofs.InsertedRows
import ResolvedSql.Proofs.JsonText
import ResolvedSql.Proofs.KeyedNames
import ResolvedSql.Proofs.LiteralText
import ResolvedSql.Proofs.Meaning
import ResolvedSql.Proofs.NameAssignment
import ResolvedSql.Proofs.NameLists
import ResolvedSql.Proofs.NestedPositions
import ResolvedSql.Proofs.NumericText
import ResolvedSql.Proofs.Occurrences
import ResolvedSql.Proofs.Parts
import ResolvedSql.Proofs.PathLocality
import ResolvedSql.Proofs.PendingColumns
import ResolvedSql.Proofs.QualifiedPaths
import ResolvedSql.Proofs.QueryFront
import ResolvedSql.Proofs.QuotedNames
import ResolvedSql.Proofs.Realization
import ResolvedSql.Proofs.Rearrangement
import ResolvedSql.Proofs.RegistryHistory
import ResolvedSql.Proofs.Rendering
import ResolvedSql.Proofs.Routes
import ResolvedSql.Proofs.Run
import ResolvedSql.Proofs.SelectList
import ResolvedSql.Proofs.SharedNames
import ResolvedSql.Proofs.Similarity
import ResolvedSql.Proofs.Sites
import ResolvedSql.Proofs.Skeleton
import ResolvedSql.Proofs.StringContents
import ResolvedSql.Proofs.Substitution
import ResolvedSql.Proofs.Supported
import ResolvedSql.Proofs.Surface
import ResolvedSql.Proofs.WindowCalls
import ResolvedSql.Proofs.WindowScope
import ResolvedSql.Proofs.WireRoundTrip
import ResolvedSql.Render.Clause
import ResolvedSql.Render.Node
import ResolvedSql.Render.State
import ResolvedSql.SqlType
import ResolvedSql.Statement
import ResolvedSql.Text.Characters
import ResolvedSql.Text.Order
import ResolvedSql.Text.Quoted
import ResolvedSql.Toml.Printer
import ResolvedSql.Toml.Quoted
import ResolvedSql.Toml.Reader
import ResolvedSql.Toml.Scalar
import ResolvedSql.Toml.Table
import ResolvedSql.Tree.Basic
import ResolvedSql.Tree.Codes
import ResolvedSql.Tree.Unsupported
import ResolvedSql.Tree.Wire
import ResolvedSql.Value
