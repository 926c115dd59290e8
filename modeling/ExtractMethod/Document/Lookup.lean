import ExtractMethod.Document.Basic

/-! Finding tokens by their position. Tokens are in document order, so a position is found by
halving. -/
namespace ExtractMethod.Document

open Text (Range partitionPoint)

variable (d : Document)

/-- The numbers from `first` up to `stop`. -/
def numbersBetween (first stop : Nat) : List Nat := List.range' first (stop - first)

/-- The next significant token after a token. -/
def nextToken? (t : Nat) : Option Nat :=
  (numbersBetween (t + 1) d.tokenCount).find? d.isSignificant

/-- The last significant token before a token. -/
def previousToken? (t : Nat) : Option Nat :=
  (numbersBetween 0 t).reverse.find? d.isSignificant

/-- The first significant token that ends after an offset. -/
def tokenOnRight? (offset : Nat) : Option Nat :=
  let first := partitionPoint (fun row => row.range.stop ≤ offset) d.tokens
  (numbersBetween first d.tokenCount).find? d.isSignificant

/-- The last significant token that starts before an offset. -/
def tokenOnLeft? (offset : Nat) : Option Nat :=
  let stop := partitionPoint (fun row => row.range.start < offset) d.tokens
  (numbersBetween 0 stop).reverse.find? d.isSignificant

/-- The tokens that share a byte with a range or lie, empty, strictly inside it. -/
def tokensIn (r : Range) : List Nat :=
  numbersBetween (partitionPoint (fun row => row.range.stop ≤ r.start) d.tokens)
    (partitionPoint (fun row => row.range.start < r.stop) d.tokens)

/-- An error token or an error node overlaps the range. -/
def hasErrorsIn (r : Range) : Bool :=
  (d.tokensIn r).any (fun t => (d.token t).kind = .error) ||
    d.nodes.any fun row => row.kind = .errorNode && row.range.intersects r

end ExtractMethod.Document
