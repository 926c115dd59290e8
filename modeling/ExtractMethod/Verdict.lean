namespace ExtractMethod

/-- The outcome of a validity check. A check that did not succeed blocks the extraction; the
reasons of one that did are warnings. -/
structure Verdict where
  succeeded : Bool
  reasons : List String
deriving DecidableEq

namespace Verdict

def ok : Verdict := ⟨true, []⟩

instance : Inhabited Verdict := ⟨ok⟩

/-- A verdict with one reason. The empty text is no reason. -/
def because (succeeded : Bool) (reason : String) : Verdict :=
  ⟨succeeded, if reason = "" then [] else [reason]⟩

/-- A blocking failure. -/
def failed (reason : String) : Verdict := because false reason

/-- A note that blocks nothing. -/
def warning (reason : String) : Verdict := because true reason

/-- Both verdicts together: the reasons in order, and success only if both succeeded. -/
def and (first second : Verdict) : Verdict :=
  ⟨first.succeeded && second.succeeded, first.reasons ++ second.reasons⟩

def isFailure (v : Verdict) : Bool := !v.succeeded

def hasReasons (v : Verdict) : Bool := !v.reasons.isEmpty

/-- The reasons, one on each line. -/
def message? (v : Verdict) : Option String :=
  if v.reasons.isEmpty then none else some ("\n".intercalate v.reasons)

def render (v : Verdict) : String :=
  let word := if v.succeeded then "ok" else "failed"
  match v.message? with
  | some message => word ++ ": " ++ message
  | none => word

end Verdict

end ExtractMethod
