import PredicateTrace.Assertion
import PredicateTrace.CommandLine
import PredicateTrace.Document
import PredicateTrace.Evaluation
import PredicateTrace.Expr
import PredicateTrace.Expr.Parser
import PredicateTrace.Host.Array
import PredicateTrace.Host.Class
import PredicateTrace.Host.Heap
import PredicateTrace.Host.Operators
import PredicateTrace.Host.Sample
import PredicateTrace.Library.Method
import PredicateTrace.Library.Registry
import PredicateTrace.Lowering
import PredicateTrace.Main
import PredicateTrace.Number.Binary
import PredicateTrace.Number.Decimal
import PredicateTrace.Number.Numeral
import PredicateTrace.Number.Word
import PredicateTrace.Op
import PredicateTrace.Op.Listing
import PredicateTrace.Op.Source
import PredicateTrace.Operator
import PredicateTrace.Position
import PredicateTrace.Predicate
import PredicateTrace.Proofs.Running
import PredicateTrace.Proofs.TraceNodes
import PredicateTrace.Quoted
import PredicateTrace.Report
import PredicateTrace.Resolver
import PredicateTrace.Scope
import PredicateTrace.Session
import PredicateTrace.Settings
import PredicateTrace.SyntaxError
import PredicateTrace.Text.Case
import PredicateTrace.Text.CharClass
import PredicateTrace.Text.Codes
import PredicateTrace.Text.Quote
import PredicateTrace.Text.Unprintable
import PredicateTrace.Token
import PredicateTrace.Token.Lexer
import PredicateTrace.Trace
import PredicateTrace.TypeRef
import PredicateTrace.Typing
import PredicateTrace.Value.Arithmetic
import PredicateTrace.Value.Basic
import PredicateTrace.Value.Coercion
import PredicateTrace.Value.Equality
import PredicateTrace.Value.Format
import PredicateTrace.Value.Hash
import PredicateTrace.Value.Text
import PredicateTrace.Yaml
import PredicateTrace.Yaml.Mark
import PredicateTrace.Yaml.Scalar
import PredicateTrace.Proofs.EvaluationRules
import PredicateTrace.Proofs.EvaluatedParts
import PredicateTrace.Proofs.FailureSpine
import PredicateTrace.Proofs.EvaluatedChildren
import PredicateTrace.Proofs.DirectEvaluation
import PredicateTrace.Proofs.PrimitiveOps
import PredicateTrace.Proofs.PrimitiveLowering
import PredicateTrace.Proofs.KindedOps
import PredicateTrace.Proofs.MeaningPreservation
import PredicateTrace.Proofs.TypeSoundness
import PredicateTrace.Proofs.HostEffects
import PredicateTrace.Proofs.TokenListing
import PredicateTrace.Proofs.Rendering
import PredicateTrace.Proofs.Requoting
import PredicateTrace.Proofs.TokenLayout
import PredicateTrace.Proofs.Respacing
import PredicateTrace.Proofs.LoweredTree
import PredicateTrace.Proofs.Grouping
import PredicateTrace.Proofs.ConfinedRuns
import PredicateTrace.Proofs.ConfinedOps
import PredicateTrace.Proofs.MissingMembers
import PredicateTrace.Proofs.FailureContainment
import PredicateTrace.Proofs.TreeShapes
import PredicateTrace.Proofs.NamedLocals
import PredicateTrace.Proofs.CapturedContents
import PredicateTrace.Proofs.CapturedLocals
import PredicateTrace.Proofs.Snapshots
import PredicateTrace.Proofs.LoweredForms
import PredicateTrace.Proofs.SourceTexts
import PredicateTrace.Proofs.Verdicts
import PredicateTrace.Proofs.ScalarLiterals
import PredicateTrace.Proofs.StringLiterals
import PredicateTrace.Proofs.IntegerLiterals
import PredicateTrace.Proofs.ArrayCreation
import PredicateTrace.Proofs.TwosComplement
import PredicateTrace.Proofs.Assignability
import PredicateTrace.Proofs.SubExpressions
import PredicateTrace.Proofs.PlacedNodes
import PredicateTrace.Proofs.Unboxing
import PredicateTrace.Proofs.FloatingParts
import PredicateTrace.Proofs.SingleRounding
import PredicateTrace.Proofs.FloatingOrder
import PredicateTrace.Proofs.IntegralConversions
import PredicateTrace.Proofs.MixedComparisons
import PredicateTrace.Proofs.TextualExpressions
import PredicateTrace.Proofs.Concatenation
import PredicateTrace.Proofs.GroupedSources
import PredicateTrace.Proofs.ShownForms
import PredicateTrace.Proofs.ShownLengths
import PredicateTrace.Proofs.ParserDepth
import PredicateTrace.Proofs.UnreadableNumbers
import PredicateTrace.Proofs.DecimalLayout
import PredicateTrace.Proofs.SyntaxErrors
import PredicateTrace.Proofs.SingleLines
import PredicateTrace.Proofs.ShownLines
import PredicateTrace.Proofs.SourceLines
import PredicateTrace.Proofs.EntryLines
