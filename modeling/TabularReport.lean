import TabularReport.Markup.Document
import TabularReport.Definition.Reader
import TabularReport.Settings.Basic
import TabularReport.Session.Basic
import TabularReport.Table.Basic
import TabularReport.Report
import TabularReport.Proofs.Outcome
import TabularReport.Proofs.Expr.References
import TabularReport.Proofs.Definition.Linked
import TabularReport.Proofs.Eval.Scope
import TabularReport.Proofs.Eval.Scan
import TabularReport.Proofs.Eval.Coincidence
import TabularReport.Proofs.Eval.Typing
import TabularReport.Proofs.OrderedMap
import TabularReport.Proofs.Store
import TabularReport.Proofs.Store.Search
import TabularReport.Proofs.Session.Step
import TabularReport.Proofs.Session.Cells
import TabularReport.Proofs.Session.Snapshot
import TabularReport.Proofs.Session.Fresh
import TabularReport.Proofs.Session.Lookup
import TabularReport.Proofs.Session.Safety
import TabularReport.Proofs.Query.Outline
import TabularReport.Proofs.Number.Digits
import TabularReport.Proofs.Query.Placeholders
import TabularReport.Proofs.Query.Segmentation
import TabularReport.Proofs.Expr.Complete
import TabularReport.Proofs.Number.ReadBack
import TabularReport.Proofs.Expr.Lexeme
import TabularReport.Proofs.Expr.Lexing
import TabularReport.Proofs.Expr.Tiling
import TabularReport.Proofs.Expr.Printing
import TabularReport.Proofs.Parameter.Order
import TabularReport.Proofs.Parameter.Solution
import TabularReport.Proofs.Parameter.Solvable
import TabularReport.Proofs.Parameter.Independence
import TabularReport.Proofs.Parameter.Typed
import TabularReport.Proofs.Session.Layout
import TabularReport.Proofs.Session.Failure
import TabularReport.Proofs.Session.Trace
import TabularReport.Proofs.Text.Proper
import TabularReport.Proofs.Markup.Element
import TabularReport.Proofs.Markup.Vocabulary
import TabularReport.Proofs.Markup.Document
import TabularReport.Proofs.Definition.WellFormed
import TabularReport.Proofs.Definition.Vocabulary
import TabularReport.Proofs.Table.Alignment
import TabularReport.Proofs.Session.Typing
import TabularReport.Proofs.Report.Shared
import TabularReport.Proofs.Report.Contents
import TabularReport.Proofs.Number.Order
import TabularReport.Proofs.Table.SortKey
import TabularReport.Proofs.Table.Order
import TabularReport.Proofs.Table.Display
import TabularReport.Proofs.Number.Text
import TabularReport.Proofs.Calendar.Text
import TabularReport.Proofs.Store.Key
import TabularReport.Proofs.Report.Links
import TabularReport.Proofs.Query.Rescan
import TabularReport.Proofs.Eval.Qualified
import TabularReport.Proofs.Number.Whole
import TabularReport.Proofs.Calendar.Parts
import TabularReport.Proofs.Eval.DayShift
import TabularReport.Proofs.Calendar.ReadBack
import TabularReport.Proofs.Parameter.Display
import TabularReport.Proofs.Expr.Reading
import TabularReport.Proofs.Expr.Fault
import TabularReport.Proofs.Markup.Search
