import ExtractMethod.Analysis.Basic
import ExtractMethod.Analysis.Concern
import ExtractMethod.Analysis.Error
import ExtractMethod.Analysis.References
import ExtractMethod.Boundary.Classification
import ExtractMethod.Boundary.Judgement
import ExtractMethod.Boundary.Style
import ExtractMethod.Boundary.Table
import ExtractMethod.Boundary.Variable
import ExtractMethod.Cancel.Poll
import ExtractMethod.Cancel.Token
import ExtractMethod.Decimal.Basic
import ExtractMethod.Decimal.Binary
import ExtractMethod.Decimal.Shortest
import ExtractMethod.Document.Basic
import ExtractMethod.Document.Lookup
import ExtractMethod.Fixture.Basic
import ExtractMethod.Fixture.Item
import ExtractMethod.Fixture.Reader
import ExtractMethod.Fixture.Writer
import ExtractMethod.Flow.Encoding
import ExtractMethod.Flow.Facts
import ExtractMethod.Flow.Flags
import ExtractMethod.Flow.Region
import ExtractMethod.Json.Range
import ExtractMethod.Json.Value
import ExtractMethod.Keyed
import ExtractMethod.Model.Encoding
import ExtractMethod.Model.Ledger
import ExtractMethod.Model.Snapshot
import ExtractMethod.Model.Symbol
import ExtractMethod.Name
import ExtractMethod.Options.Basic
import ExtractMethod.Options.Config
import ExtractMethod.Options.Encoding
import ExtractMethod.Reason
import ExtractMethod.Selection.Basic
import ExtractMethod.Selection.Classify
import ExtractMethod.Selection.Directives
import ExtractMethod.Selection.Expression
import ExtractMethod.Selection.OwnCode
import ExtractMethod.Selection.Run
import ExtractMethod.Selection.Scope
import ExtractMethod.Signature.Basic
import ExtractMethod.Signature.Encoding
import ExtractMethod.Signature.Infer
import ExtractMethod.Text.Alphabetic
import ExtractMethod.Text.Blank
import ExtractMethod.Text.CharSet
import ExtractMethod.Text.Combining
import ExtractMethod.Text.Lines
import ExtractMethod.Text.Number
import ExtractMethod.Text.PartitionPoint
import ExtractMethod.Text.Quoted
import ExtractMethod.Text.Range
import ExtractMethod.Text.Slice
import ExtractMethod.Text.Unprintable
import ExtractMethod.Text.Words
import ExtractMethod.Toml.Datetime
import ExtractMethod.Toml.Document
import ExtractMethod.Toml.Grammar
import ExtractMethod.Toml.Number
import ExtractMethod.Toml.Scan
import ExtractMethod.Toml.Text
import ExtractMethod.Toml.Value
import ExtractMethod.Tree.Builder
import ExtractMethod.Tree.Element
import ExtractMethod.Tree.Event
import ExtractMethod.Tree.Kind
import ExtractMethod.Tree.Layout
import ExtractMethod.Tree.NodeKind
import ExtractMethod.Tree.Spelling
import ExtractMethod.Tree.TokenKind
import ExtractMethod.Ty.Basic
import ExtractMethod.Ty.Encoding
import ExtractMethod.Ty.Param
import ExtractMethod.Ty.Render
import ExtractMethod.Verdict
import ExtractMethod.Version
import ExtractMethod.Proofs.Document.Nodes
import ExtractMethod.Proofs.Patience
import ExtractMethod.Proofs.Document.Tokens
import ExtractMethod.Proofs.Selection.Scope
import ExtractMethod.Proofs.Selection.Expression
import ExtractMethod.Proofs.Selection.Run
import ExtractMethod.Proofs.Document.Lookup
import ExtractMethod.Proofs.Selection.Classify
import ExtractMethod.Proofs.Selection.Legal
import ExtractMethod.Proofs.Selection.Innermost
import ExtractMethod.Proofs.Boundary.Table
import ExtractMethod.Proofs.Keyed
import ExtractMethod.Proofs.Ty.Param
import ExtractMethod.Proofs.Boundary.Classification
import ExtractMethod.Proofs.Analysis.Stages
import ExtractMethod.Proofs.Analysis.Exchange
import ExtractMethod.Proofs.Boundary.Account
import ExtractMethod.Proofs.Analysis.Closure
import ExtractMethod.Proofs.Analysis.Concern
import ExtractMethod.Proofs.Signature.Conservation
import ExtractMethod.Proofs.Analysis.Async
import ExtractMethod.Proofs.Boundary.Lacking
import ExtractMethod.Proofs.Ty.Reachable
import ExtractMethod.Proofs.Analysis.Sufficient
import ExtractMethod.Proofs.Boundary.Rearranged
import ExtractMethod.Proofs.Analysis.Rearranged
import ExtractMethod.Proofs.Analysis.Conditions
import ExtractMethod.Proofs.Analysis.Anonymous
import ExtractMethod.Proofs.Analysis.Cancellation
import ExtractMethod.Proofs.Boundary.BestEffort
import ExtractMethod.Proofs.Analysis.BestEffort
import ExtractMethod.Proofs.Selection.SyntaxErrors
import ExtractMethod.Proofs.Text.Lines
import ExtractMethod.Proofs.Document.Plain
import ExtractMethod.Proofs.Selection.Ends
import ExtractMethod.Proofs.Selection.Restamp
import ExtractMethod.Proofs.Selection.Search
import ExtractMethod.Proofs.Selection.Outermost
import ExtractMethod.Proofs.Selection.FoundAgain
import ExtractMethod.Proofs.Selection.Rehome
import ExtractMethod.Proofs.Tree.Balance
import ExtractMethod.Proofs.Tree.Open
import ExtractMethod.Proofs.Tree.Build
import ExtractMethod.Proofs.Document.Standing
import ExtractMethod.Proofs.Document.Events
import ExtractMethod.Proofs.Document.Walk
import ExtractMethod.Proofs.Selection.Loops
import ExtractMethod.Proofs.Text.PartitionPoint
import ExtractMethod.Proofs.Selection.Trivia
import ExtractMethod.Proofs.Selection.Directives
import ExtractMethod.Proofs.Selection.Extremal
import ExtractMethod.Proofs.Selection.OwnCode
import ExtractMethod.Proofs.Selection.Operand
import ExtractMethod.Proofs.Analysis.Instance
import ExtractMethod.Proofs.Signature.Rewrap
import ExtractMethod.Proofs.Document.Ancestry
import ExtractMethod.Proofs.Document.Scan
import ExtractMethod.Proofs.Selection.Refusal
import ExtractMethod.Proofs.Ty.Erasure
import ExtractMethod.Proofs.Ty.Discovery
import ExtractMethod.Proofs.Ty.Encoding
import ExtractMethod.Proofs.Model.References
import ExtractMethod.Proofs.Model.Log
import ExtractMethod.Proofs.Model.Reordered
import ExtractMethod.Proofs.Analysis.FirstUse
import ExtractMethod.Proofs.Cancel.Family
import ExtractMethod.Proofs.Fixture.Grammar
import ExtractMethod.Proofs.Fixture.Scan
import ExtractMethod.Proofs.Fixture.Reader
import ExtractMethod.Proofs.Fixture.Writer
import ExtractMethod.Proofs.Fixture.Rendering
import ExtractMethod.Proofs.Fixture.Markers
import ExtractMethod.Proofs.Ty.FirstUse
import ExtractMethod.Proofs.Text.Encoding
import ExtractMethod.Proofs.Fixture.Strings
