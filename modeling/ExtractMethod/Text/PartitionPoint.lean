namespace ExtractMethod.Text

variable {α : Type}

/-- Halves the interval from `lo` to `hi`: the test is taken to hold before `lo` and to fail from
`hi` on. -/
def partitionPointIn (holds : α → Bool) (xs : Array α) (lo hi : Nat) (h : hi ≤ xs.size) : Nat :=
  if hlt : lo < hi then
    let mid := (lo + hi) / 2
    if holds xs[mid] then partitionPointIn holds xs (mid + 1) hi h
    else partitionPointIn holds xs lo mid (by omega)
  else lo
termination_by hi - lo

/-- The number of leading elements that pass the test, found by halving. The test must hold on an
initial segment only. -/
def partitionPoint (holds : α → Bool) (xs : Array α) : Nat :=
  partitionPointIn holds xs 0 xs.size (Nat.le_refl _)

end ExtractMethod.Text
