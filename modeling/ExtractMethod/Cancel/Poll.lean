namespace ExtractMethod

/-- How often the host still answers that an analysis may go on. -/
inductive Patience where
  | unlimited
  | limited (polls : Nat)
deriving DecidableEq

/-- The answer of an analysis that the host gave up on. -/
structure Cancelled where
deriving DecidableEq

def Cancelled.message : String := "analysis was cancelled"

/-- One question to the host: the patience left, or nothing when it is spent. -/
def Patience.spend : Patience → Option Patience
  | .unlimited => some .unlimited
  | .limited 0 => none
  | .limited (n + 1) => some (.limited n)

/-- A computation that asks the host now and then whether to go on, and ends without an answer at
the first refusal. -/
abbrev Poll := StateT Patience Option

namespace Poll

variable {α β σ ε : Type}

/-- Asks the host once. -/
def ask : Poll Unit := fun patience => patience.spend.map fun left => ((), left)

/-- Runs a computation under a host of the given patience. -/
def run (p : Poll α) (patience : Patience) : Except Cancelled α :=
  match p patience with
  | some (a, _) => .ok a
  | none => .error {}

/-- Visits the elements in order, asking before each, until one settles the search. -/
def search (visit : α → Option β) : List α → Poll (Option β)
  | [] => pure none
  | a :: rest => do
    ask
    match visit a with
    | some b => pure (some b)
    | none => search visit rest

/-- Folds over the elements in order, asking before each. -/
def fold (step : σ → α → σ) (state : σ) : List α → Poll σ
  | [] => pure state
  | a :: rest => do
    ask
    fold step (step state a) rest

/-- Visits the elements in order, asking before each, and collects what the visits find. The first
visit that fails ends it. -/
def collect (visit : α → Except ε (Option β)) : List α → ExceptT ε Poll (List β)
  | [] => pure []
  | a :: rest => do
    ask
    match ← ExceptT.mk (pure (visit a)) with
    | some b => pure (b :: (← collect visit rest))
    | none => collect visit rest

end Poll

end ExtractMethod
