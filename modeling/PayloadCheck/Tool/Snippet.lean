import PayloadCheck.Highlight.Split
import PayloadCheck.Outcome

namespace PayloadCheck.Tool

open Highlight

/-- How much of a text is shown on either side of the place. -/
def context : Nat := 30

/-- A text with each line feed spelled out. -/
def spelled (text : List Char) : List Char :=
  text.flatMap fun c => if c = '\n' then ['\\', 'n'] else [c]

/-- A segment with marks around it if it is highlighted. -/
def marked (s : Segment) : List Char :=
  if s.highlighted then '>' :: '>' :: '>' :: s.text ++ ['<', '<', '<'] else s.text

/-- The ranges that lie in a part of a text, counted from the start of the part. -/
def within (low high : Nat) (ranges : List Range) : List Range :=
  ranges.filterMap fun r =>
    if inside : low ≤ r.start ∧ r.stop ≤ high then
      some ⟨r.start - low, r.stop - low, by have := r.nonempty; omega⟩
    else none

/-- The text around the first of some ranges, with marks at all ranges in it. -/
def snippet? (text : List Char) (ranges : List Range) : Option (List Char) :=
  ranges.head?.map fun first =>
    let low := first.start - context
    let high := min text.length (first.stop + context)
    let part := (text.take high).drop low
    spelled ((segments part (within low high ranges)).flatMap marked)

end PayloadCheck.Tool
