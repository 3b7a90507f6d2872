import PayloadCheck.InputError

namespace PayloadCheck.Highlight

/-- The characters from `start` up to, but without, `stop`. -/
structure Range where
  start : Nat
  stop : Nat
  nonempty : start < stop
deriving DecidableEq, Repr

namespace Range

def length (r : Range) : Nat := r.stop - r.start

/-- Whether a range covers the character at an offset. -/
def Covers (r : Range) (i : Nat) : Prop := r.start ≤ i ∧ i < r.stop

instance (r : Range) (i : Nat) : Decidable (r.Covers i) := inferInstanceAs (Decidable (_ ∧ _))

/-- The range between two bounds. Bounds below their least values are both reported; only bounds
that are each allowed are compared. -/
def ofBounds (start stop : Int) : Except (List InputError) Range :=
  let low := if start < 0 then [⟨[.field "start"], .belowMinimum 0⟩] else []
  let high := if stop < 1 then [⟨[.field "end"], .belowMinimum 1⟩] else []
  if low ++ high ≠ [] then .error (low ++ high)
  else if ordered : start.toNat < stop.toNat then .ok ⟨start.toNat, stop.toNat, ordered⟩
  else .error [⟨[], .emptyRange start stop⟩]

end Range

/-- Whether some range of a list covers an offset. -/
def Covered (ranges : List Range) (i : Nat) : Prop := ∃ r ∈ ranges, r.Covers i

end PayloadCheck.Highlight
