import RecordQuery.Binary64.Basic
import RecordQuery.Binary64.Numeral
import RecordQuery.Binary64.Rounding
import RecordQuery.Binary64.Shortest
import RecordQuery.Dict
import RecordQuery.Dict.Lemmas
import RecordQuery.Document.Decoder
import RecordQuery.Document.Tree
import RecordQuery.Json.Basic
import RecordQuery.Json.Literal
import RecordQuery.Json.Number
import RecordQuery.Json.Reader
import RecordQuery.Json.Token
import RecordQuery.Json.Writer
import RecordQuery.Log
import RecordQuery.Proofs.Binary64.LongestNumeral
import RecordQuery.Proofs.Binary64.Nearest
import RecordQuery.Proofs.Binary64.Numeral
import RecordQuery.Proofs.Binary64.NumeralText
import RecordQuery.Proofs.Json.Number
import RecordQuery.Proofs.Query.BlankKeys
import RecordQuery.Proofs.Query.Clause
import RecordQuery.Proofs.Query.EmptyQuery
import RecordQuery.Proofs.Query.Execution
import RecordQuery.Proofs.Query.FilterOrder
import RecordQuery.Proofs.Query.FilterStages
import RecordQuery.Proofs.Query.Grammar
import RecordQuery.Proofs.Query.IntegerOrder
import RecordQuery.Proofs.Query.Paging
import RecordQuery.Proofs.Query.RoundTrip
import RecordQuery.Proofs.Query.SortOrder
import RecordQuery.Proofs.Query.SortPasses
import RecordQuery.Proofs.Query.SortReversal
import RecordQuery.Proofs.Query.TextSearch
import RecordQuery.Proofs.Query.WindowNumbers
import RecordQuery.Proofs.Record.FieldPath
import RecordQuery.Proofs.Record.PathLaws
import RecordQuery.Proofs.Record.Projection
import RecordQuery.Proofs.Record.Reprojection
import RecordQuery.Proofs.StableSort
import RecordQuery.Proofs.Store.Collection
import RecordQuery.Proofs.Store.FileTree
import RecordQuery.Proofs.Store.Pathname
import RecordQuery.Proofs.Store.RecordId
import RecordQuery.Proofs.Store.Session
import RecordQuery.Proofs.Text.Blank
import RecordQuery.Proofs.Text.DigitRun
import RecordQuery.Proofs.Text.FinalSigma
import RecordQuery.Proofs.Text.Form
import RecordQuery.Proofs.Text.NaturalOrder
import RecordQuery.Proofs.Text.NaturalTokens
import RecordQuery.Proofs.Text.Pieces
import RecordQuery.Proofs.Text.Span
import RecordQuery.Proofs.Text.Utf8Order
import RecordQuery.Proofs.Traversal
import RecordQuery.Query.Basic
import RecordQuery.Query.Error
import RecordQuery.Query.Execution
import RecordQuery.Query.Filter
import RecordQuery.Query.Format
import RecordQuery.Query.Keys
import RecordQuery.Query.Operator
import RecordQuery.Query.Rendering
import RecordQuery.Query.Schema
import RecordQuery.Query.SortKey
import RecordQuery.Query.Window
import RecordQuery.Record.FieldPath
import RecordQuery.Record.Operand
import RecordQuery.Store.Config
import RecordQuery.Store.Directory
import RecordQuery.Store.Error
import RecordQuery.Store.FileTree
import RecordQuery.Store.Memory
import RecordQuery.Store.Pathname
import RecordQuery.Store.Repository
import RecordQuery.Text.Blank
import RecordQuery.Text.CharClass
import RecordQuery.Text.Digit
import RecordQuery.Text.Form
import RecordQuery.Text.Hex
import RecordQuery.Text.Lowercase
import RecordQuery.Text.Lowercase.Table
import RecordQuery.Text.NaturalOrder
import RecordQuery.Text.Utf8
import RecordQuery.Yaml.Layout
import RecordQuery.Yaml.Mark
import RecordQuery.Yaml.Reader
import RecordQuery.Yaml.Scalar
import RecordQuery.Yaml.Token
import RecordQuery.Yaml.Token.Lexer
import RecordQuery.Proofs.Binary64.FullReading
import RecordQuery.Proofs.Query.OperatorLaws
import RecordQuery.Proofs.Text.LevelTexts
import RecordQuery.Proofs.Query.Membership
import RecordQuery.Proofs.Query.RepeatedKeys
import RecordQuery.Proofs.Text.NaturalPrefix
import RecordQuery.Proofs.Store.ResourceTable
import RecordQuery.Proofs.Store.SessionLookup
