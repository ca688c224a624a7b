import EffectLint.BasicType
import EffectLint.Command.Arguments
import EffectLint.Command.Outcome
import EffectLint.Discard.Check
import EffectLint.Dump
import EffectLint.Effect.Shallow
import EffectLint.Effect.Walk
import EffectLint.Grammar.Expression
import EffectLint.Grammar.Item
import EffectLint.Grammar.Nonterminal
import EffectLint.Grammar.Production
import EffectLint.Grammar.State
import EffectLint.Grammar.Statement
import EffectLint.Grammar.Type
import EffectLint.Lowering.Expression
import EffectLint.Lowering.Module
import EffectLint.Lowering.Node
import EffectLint.Lowering.State
import EffectLint.Lowering.Type
import EffectLint.Main
import EffectLint.Module
import EffectLint.Name.Numbering
import EffectLint.Name.Scope
import EffectLint.Name.Table
import EffectLint.Operator
import EffectLint.Program.Arena
import EffectLint.Program.Basic
import EffectLint.Program.Flow
import EffectLint.Program.Node
import EffectLint.Program.Text
import EffectLint.Report.Diagnostic
import EffectLint.Report.Json
import EffectLint.Report.Kind
import EffectLint.Report.Mark
import EffectLint.Report.Patch
import EffectLint.Report.Plain
import EffectLint.Report.Reporter
import EffectLint.Report.Snippet
import EffectLint.Report.Window
import EffectLint.Text.Json
import EffectLint.Text.Line
import EffectLint.Text.Shown
import EffectLint.Text.Span
import EffectLint.Text.Styled
import EffectLint.Token.Kind
import EffectLint.Token.Lexer
import EffectLint.Token.Pattern
import EffectLint.Token.Rules
import EffectLint.Tree.Basic
import EffectLint.Tree.Outline
import EffectLint.Type.Basic
import EffectLint.Type.Purity
import EffectLint.Type.Table
import EffectLint.Type.Text
import EffectLint.Proofs.Arena.Forest
import EffectLint.Proofs.Effect.Declared
import EffectLint.Proofs.Discard.Policy
import EffectLint.Proofs.Arena.Growth
import EffectLint.Proofs.Discard.Refinement
import EffectLint.Proofs.Tree.Induction
import EffectLint.Proofs.Lowering.Steps
import EffectLint.Proofs.Lowering.Question
import EffectLint.Proofs.Token.Munch
import EffectLint.Proofs.Token.Lexeme
import EffectLint.Proofs.Token.Spelling
import EffectLint.Proofs.Grammar.Reads
import EffectLint.Proofs.Grammar.Written
import EffectLint.Proofs.Grammar.Type
import EffectLint.Proofs.Grammar.Levels
import EffectLint.Proofs.Grammar.Infix
import EffectLint.Proofs.Grammar.Prefix
import EffectLint.Proofs.Grammar.Attached
import EffectLint.Proofs.Grammar.RoundTrip
import EffectLint.Proofs.Program.Growth
import EffectLint.Proofs.Program.Made
import EffectLint.Proofs.Lowering.Makers
import EffectLint.Proofs.Lowering.Runs
import EffectLint.Proofs.Lowering.Types
import EffectLint.Proofs.Lowering.Parts
import EffectLint.Proofs.Lowering.Sound
import EffectLint.Proofs.Lowering.Points
import EffectLint.Proofs.Lowering.Bodies
import EffectLint.Proofs.Lowering.Fine
import EffectLint.Proofs.Lowering.Module
import EffectLint.Proofs.Lowering.Again
import EffectLint.Proofs.Display.Type
import EffectLint.Proofs.Display.Node
import EffectLint.Proofs.Grammar.Stepwise
import EffectLint.Proofs.Grammar.Budget
import EffectLint.Proofs.Grammar.Spaced
import EffectLint.Proofs.Grammar.Function
import EffectLint.Proofs.Grammar.Counted
import EffectLint.Proofs.Grammar.Clean
import EffectLint.Proofs.Grammar.CleanType
import EffectLint.Proofs.Grammar.CleanExpression
import EffectLint.Proofs.Grammar.CleanStatement
import EffectLint.Proofs.Grammar.CleanItem
import EffectLint.Proofs.Lowering.Stages
import EffectLint.Proofs.Analysis.NoError
import EffectLint.Proofs.Lowering.Behind
import EffectLint.Proofs.Lowering.Returned
import EffectLint.Proofs.Display.Again
import EffectLint.Proofs.Display.RoundTrip
import EffectLint.Proofs.Grammar.Nesting
import EffectLint.Proofs.Grammar.NestingModule
import EffectLint.Proofs.Grammar.Lasting
import EffectLint.Proofs.Grammar.LastingExpression
import EffectLint.Proofs.Grammar.LastingModule
import EffectLint.Proofs.Scoping.Growth
import EffectLint.Proofs.Scoping.Resolver
import EffectLint.Proofs.Scoping.Guided
import EffectLint.Proofs.Scoping.Agreement
import EffectLint.Proofs.Scoping.Module
import EffectLint.Proofs.Tree.Layout
import EffectLint.Proofs.Grammar.Placed
import EffectLint.Proofs.Grammar.PlacedType
import EffectLint.Proofs.Grammar.PlacedExpression
import EffectLint.Proofs.Grammar.PlacedStatement
import EffectLint.Proofs.Grammar.PlacedItem
import EffectLint.Proofs.Scoping.Parameters
import EffectLint.Proofs.Discard.WorkStack
import EffectLint.Proofs.Discard.Points
import EffectLint.Proofs.Discard.SourceOrder
import EffectLint.Proofs.Lowering.Told
import EffectLint.Proofs.Lowering.Verdict
import EffectLint.Proofs.Lowering.SaidOnce
import EffectLint.Proofs.Lowering.ReportedOnce
import EffectLint.Proofs.Type.Uses
import EffectLint.Proofs.Program.Typed
import EffectLint.Proofs.Lowering.Typing
import EffectLint.Proofs.Lowering.TypedModule
import EffectLint.Proofs.Lowering.Joined
import EffectLint.Proofs.Lowering.Roots
import EffectLint.Proofs.Grammar.OnlyErrors
import EffectLint.Proofs.Analysis.Reports
import EffectLint.Proofs.Type.Akin
import EffectLint.Proofs.Type.Asked
import EffectLint.Proofs.Tree.Edited
import EffectLint.Proofs.Program.Akin
import EffectLint.Proofs.Lowering.Alongside
import EffectLint.Proofs.Lowering.MadeAlongside
import EffectLint.Proofs.Lowering.ExprAlongside
import EffectLint.Proofs.Lowering.ModuleAlongside
import EffectLint.Proofs.Discard.Akin
import EffectLint.Proofs.Analysis.Edited
import EffectLint.Proofs.Lowering.Settled
import EffectLint.Proofs.Lowering.Unaliased
import EffectLint.Proofs.Token.Laid
import EffectLint.Proofs.Token.Cover
import EffectLint.Proofs.Display.TypeRoundTrip
import EffectLint.Proofs.Tree.Relocated
import EffectLint.Proofs.Grammar.Relocation
import EffectLint.Proofs.Grammar.MovedExpression
import EffectLint.Proofs.Grammar.MovedModule
import EffectLint.Proofs.Grammar.Extended
import EffectLint.Proofs.Grammar.SameTokens
import EffectLint.Proofs.Grammar.Restored
import EffectLint.Proofs.Grammar.Finished
import EffectLint.Proofs.Grammar.Concatenated
import EffectLint.Proofs.Effect.Walked
import EffectLint.Proofs.Lowering.Spine
import EffectLint.Proofs.Effect.Session
import EffectLint.Proofs.Grammar.Calm
import EffectLint.Proofs.Grammar.Foreseen
import EffectLint.Proofs.Grammar.Declaration
import EffectLint.Proofs.Grammar.Local
import EffectLint.Proofs.Grammar.Body
import EffectLint.Proofs.Program.Rules
import EffectLint.Proofs.Lowering.Regular
import EffectLint.Proofs.Lowering.RegularModule
import EffectLint.Proofs.Lowering.Poisoned
import EffectLint.Proofs.Lowering.Blame
import EffectLint.Proofs.Tree.Phrase
import EffectLint.Proofs.Grammar.Form
import EffectLint.Proofs.Grammar.Derived
import EffectLint.Proofs.Grammar.Traces
import EffectLint.Proofs.Grammar.Traced
import EffectLint.Proofs.Grammar.TracedType
import EffectLint.Proofs.Grammar.TracedExpression
import EffectLint.Proofs.Grammar.TracedStatement
import EffectLint.Proofs.Grammar.TracedItem
import EffectLint.Proofs.Grammar.Ranges
import EffectLint.Proofs.Type.Depth
import EffectLint.Proofs.Grammar.TypeDepth
import EffectLint.Proofs.Lowering.Ranges
import EffectLint.Proofs.Lowering.RangesModule
import EffectLint.Proofs.Analysis.Ranges
import EffectLint.Proofs.Report.Gagged
import EffectLint.Proofs.Display.Dump
import EffectLint.Proofs.Lowering.Ungrouped
import EffectLint.Proofs.Type.Descent
import EffectLint.Proofs.Type.Store
import EffectLint.Proofs.Type.Interned
import EffectLint.Proofs.Scoping.History
