namespace ExtractMethod

/-- The version of a document snapshot. Analyses of different versions must not be mixed. -/
structure Version where
  number : UInt32
deriving DecidableEq, Inhabited

/-- The version after this one. The largest version is followed by the first. -/
def Version.next (v : Version) : Version := ⟨v.number + 1⟩

def Version.first : Version := ⟨0⟩

end ExtractMethod
