import Tabular.Main
import Tabular.Proofs.Expr.Completeness
import Tabular.Proofs.Expr.LiteralText
import Tabular.Proofs.Job.Conversion
import Tabular.Proofs.Job.TokenOrder
import Tabular.Proofs.Table.Groups
import Tabular.Proofs.Table.SeparateGroups
import Tabular.Proofs.Table.Unnesting
import Tabular.Proofs.Document.ShownValues
import Tabular.Proofs.Table.NumericTotals
import Tabular.Proofs.Job.SortedLines
import Tabular.Proofs.Job.RepeatedLines
import Tabular.Proofs.Table.ReadColumns
import Tabular.Proofs.Table.RowOrder
import Tabular.Proofs.Table.GroupObjects
import Tabular.Proofs.Job.RowObjects
import Tabular.Proofs.Decimal.Places
import Tabular.Proofs.Table.Descending
import Tabular.Proofs.Job.FailedRuns
import Tabular.Proofs.Job.OverriddenTokens
import Tabular.Proofs.Document.ListedPaths
import Tabular.Proofs.Document.SingleKey
import Tabular.Proofs.Document.StrayValues
import Tabular.Proofs.Table.NestingDepth
import Tabular.Proofs.Job.HeaderOverData
import Tabular.Proofs.Job.SortedNumbers
import Tabular.Proofs.Job.DocumentLines
import Tabular.Proofs.Document.KeyOrder
import Tabular.Proofs.Table.CalculatedSums
import Tabular.Proofs.Table.SingleRows
import Tabular.Proofs.Expr.Variables
import Tabular.Proofs.Table.GroupedColumns
import Tabular.Proofs.Table.SortedTexts
import Tabular.Proofs.Expr.Placeholders
import Tabular.Proofs.Range.MalformedRanges
import Tabular.Proofs.Range.PrintedRanges
import Tabular.Proofs.Job.RejectedTokens
import Tabular.Proofs.Job.EditTokens
import Tabular.Proofs.Job.DelimiterTokens
import Tabular.Proofs.Job.IgnoredTokens
import Tabular.Proofs.Job.DocumentNumbers
