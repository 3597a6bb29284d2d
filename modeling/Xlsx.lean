import Xlsx.Proofs.Markup.Nesting
import Xlsx.Proofs.Sheet.BelowHeader
import Xlsx.Proofs.Sheet.CellSelection
import Xlsx.Proofs.Sheet.CursorRun
import Xlsx.Proofs.Sheet.Gaps
import Xlsx.Proofs.Sheet.Opening
import Xlsx.Proofs.Sheet.Outcome
import Xlsx.Proofs.Sheet.Projection
import Xlsx.Proofs.Sheet.Pushdown
import Xlsx.Proofs.Sheet.ReadingOn
import Xlsx.Proofs.Sheet.Truncation
import Xlsx.Sheet.Record
import Xlsx.Table.Plan
import Xlsx.Table.Scalar
import Xlsx.Table.Scan
import Xlsx.Proofs.Table.Records
import Xlsx.Proofs.Except
import Xlsx.Proofs.Text.Numerals
import Xlsx.Proofs.Table.Views
import Xlsx.Proofs.Markup.Content
import Xlsx.Proofs.Sheet.CellContent
import Xlsx.Proofs.Sheet.OneCell
import Xlsx.Proofs.Markup.RichText
import Xlsx.Proofs.Workbook.StringItems
import Xlsx.Proofs.Sheet.SharedText
import Xlsx.Proofs.Sheet.CellText
import Xlsx.Proofs.Sheet.StringRoutes
import Xlsx.Proofs.Sheet.SameRun
import Xlsx.Proofs.Sheet.ImpliedPlace
import Xlsx.Proofs.Sheet.EmptyElements
import Xlsx.Proofs.Markup.EarlyEnds
import Xlsx.Proofs.Workbook.PartCuts
import Xlsx.Proofs.Sheet.CellColumns
import Xlsx.Proofs.Sheet.InsideSheet
import Xlsx.Proofs.Table.Planning
import Xlsx.Proofs.Archive.Bounds
import Xlsx.Proofs.Sheet.Fused
import Xlsx.Proofs.Workbook.SheetIndex
import Xlsx.Proofs.Reference.ColumnNames
import Xlsx.Proofs.Text.Trimming
import Xlsx.Proofs.Reference.Notation
import Xlsx.Proofs.Reference.RangeNotation
import Xlsx.Proofs.Reference.OctetReading
import Xlsx.Proofs.Json.Members
import Xlsx.Proofs.Sheet.NamedColumns
import Xlsx.Proofs.Sheet.RecordViews
import Xlsx.Proofs.Calendar.Days
import Xlsx.Proofs.Decimal.Exact
import Xlsx.Proofs.Calendar.WholeSerials
import Xlsx.Proofs.Calendar.WrittenDates
import Xlsx.Proofs.Workbook.FormatCodes
import Xlsx.Proofs.Markup.Entries
import Xlsx.Proofs.Workbook.DateStyles
import Xlsx.Proofs.Archive.Targets
import Xlsx.Proofs.Text.Encoding
import Xlsx.Proofs.Text.Unescaping
import Xlsx.Proofs.Archive.EntryLimits
import Xlsx.Proofs.Sheet.Requests
import Xlsx.Proofs.Sheet.CornerBounds
import Xlsx.Proofs.Archive.Lookup
import Xlsx.Proofs.Table.Moves
import Xlsx.Proofs.Sheet.DecodedCells
import Xlsx.Proofs.Sheet.SelectedColumns
