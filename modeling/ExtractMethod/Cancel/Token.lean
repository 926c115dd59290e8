import ExtractMethod.Cancel.Poll

namespace ExtractMethod.Cancel

/-- Handles on shared flags. Every handle belongs to a family, and a family is cancelled as a
whole. A checker looks at the flag of its token each time it is called. -/
structure Tokens where
  families : List Nat
  cancelled : List Nat
  nextFamily : Nat
  checkers : List Nat

namespace Tokens

def empty : Tokens := ⟨[], [], 0, []⟩

/-- Appends a token of a family of its own. -/
def create (tokens : Tokens) : Tokens :=
  { tokens with
    families := tokens.families ++ [tokens.nextFamily]
    nextFamily := tokens.nextFamily + 1 }

/-- Appends a token of the same family as the given one. -/
def clone? (tokens : Tokens) (token : Nat) : Option Tokens :=
  tokens.families[token]?.map fun family =>
    { tokens with families := tokens.families ++ [family] }

/-- Cancels the family of a token. -/
def cancel? (tokens : Tokens) (token : Nat) : Option Tokens :=
  tokens.families[token]?.map fun family =>
    { tokens with cancelled := family :: tokens.cancelled }

/-- Whether the family of a token was cancelled. -/
def isCancelled? (tokens : Tokens) (token : Nat) : Option Bool :=
  tokens.families[token]?.map fun family => tokens.cancelled.contains family

/-- Refuses to go on once the family of the token is cancelled. -/
def check? (tokens : Tokens) (token : Nat) : Option (Except Cancelled Unit) :=
  (tokens.isCancelled? token).map fun cancelled => if cancelled then .error {} else .ok ()

/-- Appends a checker for a token. -/
def makeChecker? (tokens : Tokens) (token : Nat) : Option Tokens :=
  tokens.families[token]?.map fun _ => { tokens with checkers := tokens.checkers ++ [token] }

/-- Checks the token of a checker, as it is by now. -/
def callChecker? (tokens : Tokens) (checker : Nat) : Option (Except Cancelled Unit) :=
  tokens.checkers[checker]?.bind tokens.check?

end Tokens

/-- A step in the life of some tokens, which are named by their place in the list. So are the
checkers that are kept. A checker may also be made for a single call. -/
inductive Step where
  | create (token : Nat)
  | clone (token : Nat)
  | cancel (token : Nat)
  | isCancelled (token : Nat)
  | check (token : Nat)
  | checker (token : Nat)
  | makeChecker (token : Nat)
  | callChecker (checker : Nat)
deriving DecidableEq

/-- What a step answers. What is appended to a list is named by its index. -/
inductive Answer where
  | index (i : Nat)
  | done
  | flag (cancelled : Bool)
  | checked (result : Except Cancelled Unit)

namespace Tokens

/-- Runs one step. A step that names an unknown token or checker has no answer. -/
def step? (tokens : Tokens) : Step → Option (Answer × Tokens)
  | .create token =>
    tokens.families[token]?.map fun _ => (.index tokens.families.length, tokens.create)
  | .clone token =>
    (tokens.clone? token).map fun after => (.index tokens.families.length, after)
  | .cancel token => (tokens.cancel? token).map fun after => (.done, after)
  | .isCancelled token => (tokens.isCancelled? token).map fun flag => (.flag flag, tokens)
  | .check token | .checker token =>
    (tokens.check? token).map fun result => (.checked result, tokens)
  | .makeChecker token =>
    (tokens.makeChecker? token).map fun after => (.index tokens.checkers.length, after)
  | .callChecker checker =>
    (tokens.callChecker? checker).map fun result => (.checked result, tokens)

/-- Runs the steps in order and collects their answers. -/
def run? (tokens : Tokens) : List Step → Option (List Answer × Tokens)
  | [] => some ([], tokens)
  | step :: rest => do
    let (answer, after) ← tokens.step? step
    let (answers, last) ← after.run? rest
    pure (answer :: answers, last)

end Tokens

end ExtractMethod.Cancel
