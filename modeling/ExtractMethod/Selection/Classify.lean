import ExtractMethod.Selection.Basic
import ExtractMethod.Selection.Directives
import ExtractMethod.Selection.Expression
import ExtractMethod.Selection.OwnCode
import ExtractMethod.Selection.Run

namespace ExtractMethod

open ExtractMethod.Flow (Region)
open Text (Range)

/-- A span together with the significant tokens at its ends. -/
structure Bounds where
  span : Range
  firstToken : Nat
  lastToken : Nat

/-- What a span selects, before its content is checked. -/
structure Target where
  region : Region
  root : Nat
  firstToken : Nat
  lastToken : Nat
  notes : Verdict

namespace Document

variable (d : Document)

/-- A span that ends where a line starts is taken to end on the line before, if it reaches that
far. The line is found by its index, which is its number too as the text has fewer than `2 ^ 32`
bytes. -/
def pullBack (span : Range) : Range :=
  if span.isEmpty || !d.lines.isStart span.stop then span
  else match d.lines.indexOf span.stop with
    | 0 => span
    | line + 1 =>
      match (d.lines.stop? line).bind (Range.between? span.start) with
      | some pulled => pulled
      | none => ((d.lines.stopWithBreakAt? line).bind (Range.between? span.start)).getD span

/-- The significant tokens that a span touches first and last. -/
def bounds (span : Range) : Except Verdict Bounds :=
  if d.size < span.stop then .error (.failed Reason.invalidSelection)
  else
    let span := d.pullBack span
    match d.tokenOnRight? span.start, d.tokenOnLeft? span.stop with
    | some first, some last =>
      if last < first then .error (.failed Reason.noValidToken) else .ok ⟨span, first, last⟩
    | _, _ => .error (.failed Reason.invalidSelection)

/-- The scope of a node, which it must have. -/
def requireScope (n : Nat) : ExceptT Verdict Poll Scope := do
  match ← d.innermostScope n with
  | some scope => pure scope
  | none => throw (.failed Reason.noValidSelection)

/-- The lowest node around both tokens, with its scope. -/
def surroundings (firstToken lastToken : Nat) : ExceptT Verdict Poll (Nat × Scope) := do
  Poll.ask
  let _ ← d.requireScope (d.token firstToken).parent
  let _ ← d.requireScope (d.token lastToken).parent
  match d.commonAncestorOfTokens? firstToken lastToken with
  | none => throw (.failed Reason.noCommonRoot)
  | some common =>
    if (d.ancestors common).any fun n => (d.kind n).isTypeDeclaration then
      pure (common, ← d.requireScope common)
    else throw (.failed Reason.notInType)

/-- The statements that the bounds select. -/
def statementTarget (allowExpansion : Bool) (scope : Scope) (b : Bounds) :
    ExceptT Verdict Poll Target := do
  let run ← if allowExpansion then d.smallestRun scope b.firstToken b.lastToken
    else d.largestRun scope b.span
  match run with
  | none => throw (.failed Reason.noValidStatementRange)
  | some run =>
    let (run, widened) := d.widenLoop run
    match d.firstToken? run.first, d.lastToken? run.last with
    | some first, some last =>
      pure ⟨.statements run.first run.last, run.container, first, last,
        if widened then .warning Reason.loopWidened else .ok⟩
    | _, _ => throw (.failed Reason.noValidStatementRange)

/-- The expression or the statements that the bounds select. -/
def target (allowExpansion : Bool) (common : Nat) (scope : Scope) (b : Bounds) :
    ExceptT Verdict Poll Target := do
  match ← d.expressionOver scope common b.firstToken b.lastToken with
  | some expression =>
    d.checkExpression scope expression
    pure ⟨.expression expression, expression, b.firstToken, b.lastToken, .ok⟩
  | none => d.statementTarget allowExpansion scope b

/-- The range from the start of one token to the end of another. -/
def tokenSpan (firstToken lastToken : Nat) : Range :=
  (Range.between? (d.token firstToken).range.start (d.token lastToken).range.stop).getD
    (d.token firstToken).range

/-- What the tree tells about a scope and the nodes of a region in it. -/
def factsOf (scope : Scope) (own : List Nat) : Traits where
  containsAwait := own.any d.isAwait
  containsConfigureAwaitFalse := own.any d.isConfigureAwaitFalse
  scopeIsAsync := d.hasChildToken scope.member .asyncKw
  scopeIsStatic := d.hasNoInstance scope.member
  inPrimaryConstructorBaseType := scope.kind = .primaryConstructorBaseType
  inConstructor := scope.kind = .constructor

/-- Finds what a span selects. A span that no call could replace is refused. -/
def classify (span : Range) (options : Options) : ExceptT Verdict Poll Selection := do
  let b ← ExceptT.mk (pure (d.bounds span))
  let (common, scope) ← d.surroundings b.firstToken b.lastToken
  let t ← d.target options.allowExpansion common scope b
  let finalSpan := d.tokenSpan t.firstToken t.lastToken
  if d.hasErrorsIn finalSpan then throw (.failed Reason.containsErrors)
  if d.cutsDirectives finalSpan then throw (.failed Reason.cutsDirectives)
  let own ← d.ownNodes t.region
  if own.any d.isYield then throw (.failed Reason.containsYield)
  pure {
    document := d
    requestedSpan := span
    finalSpan
    changed := t.firstToken ≠ b.firstToken || t.lastToken ≠ b.lastToken
    firstToken := t.firstToken
    lastToken := t.lastToken
    scope
    root := t.root
    region := t.region
    facts := d.factsOf scope own
    notes := t.notes
    allowExpansion := options.allowExpansion }

/-- Finds what a span selects for a host that never loses its patience. -/
def select (span : Range) (options : Options) : Except Verdict Selection :=
  match Poll.run (d.classify span options).run .unlimited with
  | .ok result => result
  | .error _ => .error (.failed Reason.cancelled)

end Document

/-- The same selection in another document. It still counts as changed if it was. -/
def Selection.rehome (s : Selection) (d : Document) : Except Verdict Selection :=
  (d.select s.finalSpan { allowExpansion := s.allowExpansion }).map fun moved =>
    { moved with requestedSpan := s.requestedSpan, changed := moved.changed || s.changed }

end ExtractMethod
