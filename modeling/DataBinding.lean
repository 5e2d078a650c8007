import DataBinding.Binding
import DataBinding.CommandLine.Arguments
import DataBinding.CommandLine.Run
import DataBinding.Decimal.Basic
import DataBinding.Decimal.Fixed
import DataBinding.Decimal.Layout
import DataBinding.Decimal.Numeral
import DataBinding.Decimal.Shortest
import DataBinding.Double.Arithmetic
import DataBinding.Double.Basic
import DataBinding.Double.Display
import DataBinding.Engine.Basic
import DataBinding.Engine.Hook
import DataBinding.Engine.Patch
import DataBinding.Engine.Resolve
import DataBinding.Eval.Basic
import DataBinding.Eval.Builtin
import DataBinding.Eval.Error
import DataBinding.Eval.Operation
import DataBinding.Expr.Basic
import DataBinding.Expr.Cursor
import DataBinding.Expr.Parser
import DataBinding.Expr.Printer
import DataBinding.Expr.Spelling
import DataBinding.Frame
import DataBinding.Main
import DataBinding.Path.Basic
import DataBinding.Path.Update
import DataBinding.Power
import DataBinding.Record
import DataBinding.Reference.Basic
import DataBinding.Reference.Template
import DataBinding.Scope
import DataBinding.Text.Alphabetic
import DataBinding.Text.Blank
import DataBinding.Text.Case
import DataBinding.Text.Numeric
import DataBinding.Text.Range
import DataBinding.Text.Search
import DataBinding.Value.Basic
import DataBinding.Value.Comparison
import DataBinding.Value.Conversion
import DataBinding.Value.Kind
import DataBinding.Value.Number
import DataBinding.Value.Printer
import DataBinding.Value.Reader
import DataBinding.Proofs.Double.Integral
import DataBinding.Proofs.Expr.Desugar
import DataBinding.Proofs.Expr.Token
import DataBinding.Proofs.Expr.Level
import DataBinding.Proofs.Expr.Readable
import DataBinding.Proofs.Engine.CartTotals
import DataBinding.Proofs.Eval.Respelling
import DataBinding.Proofs.Engine.Flat
import DataBinding.Proofs.Engine.Replay
import DataBinding.Proofs.Expr.Built
import DataBinding.Proofs.Value.Plain
import DataBinding.Proofs.Eval.Plain
import DataBinding.Proofs.Engine.Rendered
import DataBinding.Proofs.Expr.Members
import DataBinding.Proofs.Eval.Members
import DataBinding.Proofs.Engine.Routes
import DataBinding.Proofs.Path.Diverging
import DataBinding.Proofs.Path.Writable
import DataBinding.Proofs.Path.Removal
import DataBinding.Proofs.Engine.Untouched
import DataBinding.Proofs.Value.Reordered
import DataBinding.Proofs.Path.Commuting
import DataBinding.Proofs.Engine.Shuffled
import DataBinding.Proofs.Reference.Splitting
import DataBinding.Proofs.Engine.Templates
import DataBinding.Proofs.Engine.Fallback
import DataBinding.Proofs.Expr.Bracketed
import DataBinding.Proofs.Expr.Words
import DataBinding.Proofs.Expr.Worded
import DataBinding.Proofs.Reference.Detection
import DataBinding.Proofs.Engine.Shadowing
import DataBinding.Proofs.Engine.Wrapping
import DataBinding.Proofs.Eval.Variables
import DataBinding.Proofs.Path.Positions
import DataBinding.Proofs.Path.Elements
import DataBinding.Proofs.Engine.Deletions
import DataBinding.Proofs.Engine.Settled
import DataBinding.Proofs.Value.Distinct
import DataBinding.Proofs.Double.Position
import DataBinding.Proofs.Eval.Brackets
import DataBinding.Proofs.Value.Equality
import DataBinding.Proofs.Value.Structural
import DataBinding.Proofs.Value.Quoted
import DataBinding.Proofs.Double.Grouping
import DataBinding.Proofs.Path.Checked
import DataBinding.Proofs.Expr.Limits
import DataBinding.Proofs.Expr.Places
