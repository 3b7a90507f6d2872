import PayloadCheck.Highlight.Merge

namespace PayloadCheck.Highlight

structure Segment where
  text : List Char
  highlighted : Bool
deriving DecidableEq, Repr

/-- The part of a range that lies inside a text of the given length. -/
def Range.clamp? (length : Nat) (r : Range) : Option Range :=
  if within : r.start < length then
    some ⟨r.start, min r.stop length, by have := r.nonempty; omega⟩
  else none

/-- The segments of a text from an offset on, for ranges in normal form behind it. -/
def segmentsFrom (text : List Char) (cursor : Nat) : List Range → List Segment
  | [] => if cursor < text.length then [⟨text.drop cursor, false⟩] else []
  | r :: rest =>
    let gap := if cursor < r.start then [⟨(text.take r.start).drop cursor, false⟩] else []
    gap ++ ⟨(text.take r.stop).drop r.start, true⟩ :: segmentsFrom text r.stop rest

/-- The segments of a text, in order and without gaps. -/
def segments (text : List Char) (ranges : List Range) : List Segment :=
  segmentsFrom text 0 (merge (ranges.filterMap (·.clamp? text.length)))

end PayloadCheck.Highlight
