import ExprPrinter.Category
import ExprPrinter.Config
import ExprPrinter.Demand
import ExprPrinter.Document.Basic
import ExprPrinter.Document.Html
import ExprPrinter.Document.TagPath
import ExprPrinter.Document.Visible
import ExprPrinter.Expr.Basic
import ExprPrinter.Expr.Components
import ExprPrinter.Expr.Equality
import ExprPrinter.Expr.Inspect
import ExprPrinter.Expr.Lift
import ExprPrinter.Fault
import ExprPrinter.Form
import ExprPrinter.Form.Weight
import ExprPrinter.Host
import ExprPrinter.Indent
import ExprPrinter.Kind
import ExprPrinter.Layout
import ExprPrinter.Layout.Weight
import ExprPrinter.Markup
import ExprPrinter.Number.Binary64
import ExprPrinter.Number.Decimal
import ExprPrinter.Number.Shortest
import ExprPrinter.PlainText
import ExprPrinter.Printer
import ExprPrinter.Renderer
import ExprPrinter.Script
import ExprPrinter.Script.Weight
import ExprPrinter.Sentinel
import ExprPrinter.Session
import ExprPrinter.Slot
import ExprPrinter.Text.Accumulate
import ExprPrinter.Text.Entity
import ExprPrinter.Text.Printable
import ExprPrinter.Text.Quoted
import ExprPrinter.Text.Range
import ExprPrinter.Text.Uppercase
import ExprPrinter.Warning
import ExprPrinter.Proofs.AtWork
import ExprPrinter.Proofs.Condition.Joining
import ExprPrinter.Proofs.Condition.Meaning
import ExprPrinter.Proofs.Condition.Reader
import ExprPrinter.Proofs.Condition.Splicing
import ExprPrinter.Proofs.Condition.Text
import ExprPrinter.Proofs.Demands
import ExprPrinter.Proofs.Document.Composition
import ExprPrinter.Proofs.Document.NormalForm
import ExprPrinter.Proofs.Document.PathGrammar
import ExprPrinter.Proofs.Document.PathSplitting
import ExprPrinter.Proofs.Document.Paths
import ExprPrinter.Proofs.Document.PlainTags
import ExprPrinter.Proofs.Document.Tags
import ExprPrinter.Proofs.Document.Units
import ExprPrinter.Proofs.Form.Chains
import ExprPrinter.Proofs.Form.Containment
import ExprPrinter.Proofs.Form.Reading
import ExprPrinter.Proofs.Form.Replacement
import ExprPrinter.Proofs.Form.Support
import ExprPrinter.Proofs.Highlighting
import ExprPrinter.Proofs.HtmlText
import ExprPrinter.Proofs.Indentation
import ExprPrinter.Proofs.Layout.Parts
import ExprPrinter.Proofs.Layout.Spelling
import ExprPrinter.Proofs.Leaves
import ExprPrinter.Proofs.Lifting
import ExprPrinter.Proofs.LineEnds
import ExprPrinter.Proofs.Markup.Assembly
import ExprPrinter.Proofs.Markup.Loop
import ExprPrinter.Proofs.ModeConsistency
import ExprPrinter.Proofs.PlainText.Expansion
import ExprPrinter.Proofs.PlainText.Gaps
import ExprPrinter.Proofs.PlainText.Outcome
import ExprPrinter.Proofs.PlainText.Recursion
import ExprPrinter.Proofs.Rendering
import ExprPrinter.Proofs.Respelling
import ExprPrinter.Proofs.Respelling.Printing
import ExprPrinter.Proofs.Safety
import ExprPrinter.Proofs.Script.Endings
import ExprPrinter.Proofs.Script.LineStarts
import ExprPrinter.Proofs.Script.Parts
import ExprPrinter.Proofs.Script.Views
import ExprPrinter.Proofs.Session.Printers
import ExprPrinter.Proofs.Session.Scoping
import ExprPrinter.Proofs.Snapshot
import ExprPrinter.Proofs.Statements
import ExprPrinter.Proofs.StrictMode
import ExprPrinter.Proofs.Text.Escaping
import ExprPrinter.Proofs.Text.Reading
import ExprPrinter.Proofs.Warnings
