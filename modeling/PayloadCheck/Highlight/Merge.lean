import PayloadCheck.Highlight.Range

namespace PayloadCheck.Highlight

/-- Ranges are ordered by their starts, then by their ends. -/
def Range.before (r s : Range) : Bool :=
  r.start < s.start || (r.start == s.start && r.stop ≤ s.stop)

/-- Joins a range to those after it as long as they overlap it or touch it. -/
def absorb (current : Range) : List Range → List Range
  | [] => [current]
  | next :: rest =>
    if next.start ≤ current.stop then
      absorb ⟨current.start, max current.stop next.stop, by have := current.nonempty; omega⟩ rest
    else current :: absorb next rest

/-- The normal form of a list of ranges. -/
def merge (ranges : List Range) : List Range :=
  match ranges.mergeSort Range.before with
  | [] => []
  | first :: rest => absorb first rest

end PayloadCheck.Highlight
