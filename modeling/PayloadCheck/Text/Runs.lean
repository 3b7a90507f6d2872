namespace PayloadCheck.Text

/-- Whether a character lies in a run. The boundaries ascend; a run starts at each boundary of even
index and ends before the one that follows. -/
def inRuns (boundaries : List Nat) (c : Char) : Bool :=
  (boundaries.takeWhile (· ≤ c.toNat)).length % 2 == 1

end PayloadCheck.Text
