import PayloadCheck.Highlight.Split
import PayloadCheck.Proofs.Highlight.NormalForm

namespace PayloadCheck.Highlight

/-- The character at an offset of the joined segments lies in a highlighted one. -/
def HighlightedAt : List Segment → Nat → Prop
  | [], _ => False
  | s :: rest, i =>
    if i < s.text.length then s.highlighted = true else HighlightedAt rest (i - s.text.length)

/-- Segments divide a text at the changes between what is marked and what is not. -/
structure Divides (segments : List Segment) (text : List Char) (marked : Nat → Prop) : Prop where
  nonempty : ∀ s ∈ segments, s.text ≠ []
  whole : segments.flatMap (·.text) = text
  alternate : segments.IsChain fun a b => a.highlighted ≠ b.highlighted
  marks : ∀ i, HighlightedAt segments i ↔ i < text.length ∧ marked i

theorem highlightedAt_cons {s : Segment} {rest : List Segment} {i : Nat} :
    HighlightedAt (s :: rest) i ↔
      i < s.text.length ∧ s.highlighted = true ∨
        s.text.length ≤ i ∧ HighlightedAt rest (i - s.text.length) := by
  rw [HighlightedAt]
  split
  · rename_i inside
    simp [inside, Nat.not_le.mpr inside]
  · rename_i outside
    simp [outside, Nat.not_lt.mp outside]

namespace Divides

variable {rest : List Segment} {text : List Char} {marked marked' : Nat → Prop}

theorem nil : Divides [] [] marked where
  nonempty := List.forall_mem_nil _
  whole := rfl
  alternate := .nil
  marks i := by simp [HighlightedAt]

/-- One more segment in front, whose characters are all marked or all not. -/
theorem cons {s : Segment} (divides : Divides rest text marked) (visible : s.text ≠ [])
    (changes : ∀ next ∈ rest.head?, s.highlighted ≠ next.highlighted)
    (inside : ∀ i < s.text.length, marked' i ↔ s.highlighted = true)
    (behind : ∀ i, marked' (s.text.length + i) ↔ marked i) :
    Divides (s :: rest) (s.text ++ text) marked' where
  nonempty := List.forall_mem_cons.mpr ⟨visible, divides.nonempty⟩
  whole := by rw [List.flatMap_cons, divides.whole]
  alternate := divides.alternate.cons changes
  marks i := by
    rw [highlightedAt_cons, divides.marks, List.length_append]
    by_cases early : i < s.text.length
    · rw [inside i early]
      simp [early, Nat.not_le.mpr early, Nat.lt_add_right _ early]
    · obtain ⟨j, rfl⟩ := Nat.exists_eq_add_of_le (Nat.not_lt.mp early)
      simp [behind]

end Divides

/-- One more segment in front, cut from the text between two offsets. Marks are told by the offsets in
the whole text. -/
theorem Divides.piece {text : List Char} {rest : List Segment} {marked : Nat → Prop} {start stop : Nat}
    (divides : Divides rest (text.drop stop) fun i => marked (stop + i)) (flag : Bool)
    (marked' : Nat → Prop) (ordered : start < stop) (within : stop ≤ text.length)
    (changes : ∀ next ∈ rest.head?, flag ≠ next.highlighted)
    (inside : ∀ i, start ≤ i → i < stop → (marked' i ↔ flag = true))
    (behind : ∀ i, stop ≤ i → (marked' i ↔ marked i)) :
    Divides (⟨(text.take stop).drop start, flag⟩ :: rest) (text.drop start)
      fun i => marked' (start + i) := by
  obtain ⟨n, rfl⟩ := Nat.exists_eq_add_of_le (Nat.le_of_lt ordered)
  have length : ((text.take (start + n)).drop start).length = n := by simp [within]
  have split : text.drop start = (text.take (start + n)).drop start ++ text.drop (start + n) := by
    rw [List.drop_take, Nat.add_sub_cancel_left, ← List.drop_drop, List.take_append_drop]
  rw [split]
  refine divides.cons ?_ changes (fun i early => ?_) fun i => ?_
  · exact List.ne_nil_of_length_pos (by simp only [length]; omega)
  · simp only [length] at early
    exact inside _ (by omega) (by omega)
  · simp only [length]
    rw [← Nat.add_assoc]
    exact behind _ (by omega)

/-- Ranges in normal form that lie in a text, behind an offset. -/
structure LieIn (text : List Char) (cursor : Nat) (ranges : List Range) : Prop where
  separated : Separated ranges
  behind : ∀ r ∈ ranges, cursor ≤ r.start
  within : ∀ r ∈ ranges, r.stop ≤ text.length

theorem LieIn.tail {text : List Char} {cursor : Nat} {r : Range} {rest : List Range}
    (lie : LieIn text cursor (r :: rest)) : LieIn text r.stop rest where
  separated := lie.separated.tail
  behind s among := Nat.le_of_lt ((List.pairwise_cons.mp lie.separated.pairwise).1 s among)
  within s among := lie.within s (List.mem_cons_of_mem _ among)

/-- Segments start without highlighting, unless a range starts at the cursor. -/
theorem segmentsFrom_head {text : List Char} {cursor : Nat} {ranges : List Range}
    (apart : ∀ r ∈ ranges.head?, cursor < r.start) :
    ∀ s ∈ (segmentsFrom text cursor ranges).head?, s.highlighted = false := by
  intro s first
  cases ranges with
  | nil =>
    rw [segmentsFrom] at first
    split at first
    · cases first
      rfl
    · cases first
  | cons r rest =>
    rw [segmentsFrom, if_pos (apart r rfl)] at first
    cases first
    rfl

/-- The highlighted segment of a range, in front of the segments behind it. -/
theorem LieIn.divides_range {text : List Char} {cursor : Nat} {r : Range} {rest : List Range}
    (lie : LieIn text cursor (r :: rest))
    (divides : Divides (segmentsFrom text r.stop rest) (text.drop r.stop)
      fun i => Covered rest (r.stop + i)) :
    Divides (⟨(text.take r.stop).drop r.start, true⟩ :: segmentsFrom text r.stop rest)
      (text.drop r.start) fun i => Covered (r :: rest) (r.start + i) := by
  have apart : ∀ s ∈ rest.head?, r.stop < s.start := List.IsChain.rel_head? lie.separated
  refine divides.piece true (Covered (r :: rest)) r.nonempty (lie.within r List.mem_cons_self)
    (fun next first => ?_) (fun i low high => ?_) fun i later => ?_
  · rw [segmentsFrom_head apart next first]
    decide
  · simp [covered_cons, Range.Covers, low, high]
  · rw [covered_cons, or_iff_right]
    exact fun covers => absurd covers.2 (Nat.not_lt.mpr later)

/-- The segment up to the first range, in front of the segments from there. -/
theorem LieIn.divides_gap {text : List Char} {cursor : Nat} {r : Range} {rest : List Range}
    {s : Segment} {others : List Segment} (lie : LieIn text cursor (r :: rest)) (gap : cursor < r.start)
    (divides : Divides (s :: others) (text.drop r.start) fun i => Covered (r :: rest) (r.start + i))
    (marked : s.highlighted = true) :
    Divides (⟨(text.take r.start).drop cursor, false⟩ :: s :: others) (text.drop cursor)
      fun i => Covered (r :: rest) (cursor + i) := by
  have inText : r.start ≤ text.length :=
    Nat.le_of_lt (Nat.lt_of_lt_of_le r.nonempty (lie.within r List.mem_cons_self))
  refine divides.piece false _ gap inText (fun next first => ?_) (fun i _ high => ?_) fun i _ => .rfl
  · cases first
    rw [marked]
    exact Bool.false_ne_true
  · rw [covered_cons]
    refine iff_of_false ?_ Bool.false_ne_true
    rintro (covers | covered)
    · exact absurd covers.1 (Nat.not_le.mpr high)
    · have later := lie.separated.behind covered
      have nonempty := r.nonempty
      omega

theorem segmentsFrom_divide {text : List Char} {cursor : Nat} {ranges : List Range}
    (lie : LieIn text cursor ranges) :
    Divides (segmentsFrom text cursor ranges) (text.drop cursor)
      fun i => Covered ranges (cursor + i) := by
  induction ranges generalizing cursor with
  | nil =>
    have ended : Divides [] (text.drop text.length) fun i => Covered [] (text.length + i) := by
      rw [List.drop_length]
      exact .nil
    rw [segmentsFrom]
    split
    · rename_i remains
      have piece := ended.piece false (Covered []) remains (Nat.le_refl _) nofun
        (fun i _ _ => by simp [covered_nil]) fun i _ => .rfl
      rwa [List.take_length] at piece
    · rename_i atEnd
      rw [List.drop_of_length_le (Nat.not_lt.mp atEnd)]
      exact .nil
  | cons r rest ih =>
    have range := lie.divides_range (ih lie.tail)
    rw [segmentsFrom]
    split
    · rename_i gap
      exact lie.divides_gap gap range rfl
    · rename_i noGap
      obtain rfl : cursor = r.start :=
        Nat.le_antisymm (lie.behind r List.mem_cons_self) (Nat.not_lt.mp noGap)
      exact range

theorem covered_clamped (length : Nat) (ranges : List Range) (i : Nat) :
    Covered (ranges.filterMap (·.clamp? length)) i ↔ i < length ∧ Covered ranges i := by
  simp only [Covered, List.mem_filterMap, Range.clamp?, Option.dite_none_right_eq_some]
  constructor
  · rintro ⟨s, ⟨r, among, within, cut⟩, low, high⟩
    cases cut
    simp only at low high
    exact ⟨by omega, r, among, low, by omega⟩
  · rintro ⟨inside, r, among, low, high⟩
    have := r.nonempty
    exact ⟨⟨r.start, min r.stop length, by omega⟩, ⟨r, among, by omega, rfl⟩, low,
      Nat.lt_min.mpr ⟨high, inside⟩⟩

theorem lieIn_merge {text : List Char} {ranges : List Range}
    (within : ∀ i, Covered ranges i → i < text.length) : LieIn text 0 (merge ranges) where
  separated := separated_merge ranges
  behind _ _ := Nat.zero_le _
  within r among := by
    have nonempty := r.nonempty
    have last := within (r.stop - 1)
      ((covered_merge ranges _).mp ⟨r, among, Nat.le_sub_one_of_lt nonempty, by omega⟩)
    omega

theorem segments_divide (text : List Char) (ranges : List Range) :
    Divides (segments text ranges) text (Covered ranges) := by
  have clamped := covered_clamped text.length ranges
  have divides := segmentsFrom_divide (lieIn_merge fun i covered => ((clamped i).mp covered).1)
  refine ⟨divides.nonempty, divides.whole, divides.alternate, fun i => ?_⟩
  rw [segments, divides.marks, Nat.zero_add, covered_merge, clamped, List.drop_zero]
  simp

def strictClamp? (length : Nat) (r : Range) : Except (List InputError) (Option Range) :=
  if r.start < length then some <$> Range.ofBounds r.start (min r.stop length : Nat) else .ok none

theorem strictClamp?_eq (length : Nat) (r : Range) :
    strictClamp? length r = .ok (r.clamp? length) := by
  unfold strictClamp? Range.clamp?
  split
  · have ordered : r.start < min r.stop length := by
      have := r.nonempty
      omega
    rw [Range.ofBounds_of_lt ordered]
    rfl
  · rfl

/-- The segments of a text, with all that may go wrong on the way. -/
def strictSegments (text : List Char) (ranges : List Range) : Except (List InputError) (List Segment) := do
  let clamped ← ranges.mapM (strictClamp? text.length)
  return segmentsFrom text 0 (← strictMerge (clamped.filterMap id))

theorem strictSegments_eq (text : List Char) (ranges : List Range) :
    strictSegments text ranges = .ok (segments text ranges) := by
  have clamped : ranges.mapM (strictClamp? text.length) = .ok (ranges.map (·.clamp? text.length)) := by
    rw [funext (strictClamp?_eq text.length)]
    exact List.mapM_pure
  simp only [strictSegments, clamped, bind, Except.bind, strictMerge_eq, List.filterMap_map]
  rfl

/-- The segments are the text, cut where highlighting begins and ends: a character lies in a highlighted
segment where one of the ranges covers it. Ranges may overlap, and reach or lie past the end. -/
theorem segments_partition (text : List Char) (ranges : List Range) :
    Divides (segments text ranges) text (Covered ranges) ∧
      strictSegments text ranges = .ok (segments text ranges) :=
  ⟨segments_divide text ranges, strictSegments_eq text ranges⟩

end PayloadCheck.Highlight
