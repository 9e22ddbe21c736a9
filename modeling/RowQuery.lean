import RowQuery.Text.Blank
import RowQuery.Text.Ascii
import RowQuery.Number.Shortest
import RowQuery.Number.Reader
import RowQuery.Calendar.Pattern
import RowQuery.Expr.Traversal
import RowQuery.Rows.Cursor
import RowQuery.Sql.Node
import RowQuery.Query.Draft
import RowQuery.Model.Record
import RowQuery.Model.Session
import RowQuery.Proofs.Outcome
import RowQuery.Proofs.Sql.Binding
import RowQuery.Proofs.Sql.RecordedConstants
import RowQuery.Proofs.Sql.SelectText
import RowQuery.Proofs.Sql.PagedRows
import RowQuery.Proofs.Query.Parameters
import RowQuery.Proofs.Model.SeenFields
import RowQuery.Proofs.Model.Transparency
import RowQuery.Proofs.Expr.Folding
import RowQuery.Proofs.Sql.Renderable
import RowQuery.Proofs.Query.Counts
import RowQuery.Proofs.Query.Paging
import RowQuery.Proofs.Sql.DrawnValues
import RowQuery.Proofs.Sql.DialectBinding
import RowQuery.Proofs.Sql.JoinedConditions
import RowQuery.Proofs.Sql.AlikeTerms
import RowQuery.Proofs.Query.AlikeQueries
import RowQuery.Proofs.Model.WindowedRows
import RowQuery.Proofs.Model.Population
import RowQuery.Proofs.Query.InOrder
import RowQuery.Proofs.Model.WrittenOnce
import RowQuery.Proofs.Expr.LargestSubtrees
import RowQuery.Proofs.Sql.ReadingOrder
import RowQuery.Proofs.Query.CastTransparency
import RowQuery.Proofs.Model.DeclaredFields
import RowQuery.Proofs.Value.IntegerArithmetic
import RowQuery.Proofs.Sql.BalancedText
import RowQuery.Proofs.Sql.Operands
import RowQuery.Proofs.Sql.NamedQuery
import RowQuery.Proofs.Query.NamedRows
import RowQuery.Proofs.Expr.StaticTypes
import RowQuery.Proofs.Expr.RowDependence
import RowQuery.Proofs.Value.StableCasts
import RowQuery.Proofs.Value.TextRoundTrips
import RowQuery.Proofs.Expr.CoherentTests
import RowQuery.Proofs.FaultContext
import RowQuery.Proofs.Sql.SourcesInTurn
import RowQuery.Proofs.Sql.QuotedPieces
import RowQuery.Proofs.Model.InjectedProperties
import RowQuery.Proofs.Sql.OptionalKeyword
import RowQuery.Proofs.Sql.ClausesOnce
import RowQuery.Proofs.Sql.SafeText
import RowQuery.Proofs.Sql.WindowTests
import RowQuery.Proofs.Expr.Walks
