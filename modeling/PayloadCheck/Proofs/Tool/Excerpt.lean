import PayloadCheck.Proofs.Highlight.Partition
import PayloadCheck.Tool.Snippet

namespace PayloadCheck.Tool

open Highlight

theorem drop_take_eq_extract (text : List Char) (start stop : Nat) :
    (text.take stop).drop start = text.extract start stop := by
  rw [List.drop_take, List.extract_eq_take_drop]

/-- Offsets counted from the start of a part lead to the same characters in it. -/
theorem extract_extract (text : List Char) {low start stop high : Nat} (after : low ≤ start)
    (before : stop ≤ high) :
    (text.extract low high).extract (start - low) (stop - low) = text.extract start stop := by
  have place : low + (start - low) = start := by omega
  have size : min (stop - low - (start - low)) (high - low - (start - low)) = stop - start := by omega
  simp only [List.extract_eq_take_drop, List.drop_take, List.drop_drop, List.take_take, place, size]

theorem drop_extract (text : List Char) {low stop : Nat} (after : low ≤ stop) (high : Nat) :
    (text.extract low high).drop (stop - low) = text.extract stop high := by
  have place : low + (stop - low) = stop := by omega
  have size : high - low - (stop - low) = high - stop := by omega
  simp only [List.extract_eq_take_drop, List.drop_take, List.drop_drop, place, size]

theorem marked_end (text : List Char) (cursor : Nat) :
    (segmentsFrom text cursor []).flatMap marked = text.drop cursor := by
  rw [segmentsFrom]
  split
  · simp [marked]
  · rename_i atEnd
    have nothing : text.drop cursor = [] := List.drop_of_length_le (Nat.le_of_not_lt atEnd)
    rw [nothing]
    rfl

/-- A range is marked behind what stands before it. Where nothing does, that is the empty text, so that
ranges which touch or overlap need no case of their own. -/
theorem marked_range (text : List Char) (cursor : Nat) (r : Range) (rest : List Range) :
    (segmentsFrom text cursor (r :: rest)).flatMap marked =
      text.extract cursor r.start ++ (">>>".toList ++ text.extract r.start r.stop ++ "<<<".toList) ++
        (segmentsFrom text r.stop rest).flatMap marked := by
  rw [segmentsFrom, drop_take_eq_extract, drop_take_eq_extract]
  by_cases gap : cursor < r.start
  · simp [gap, marked]
  · have nothing : text.extract cursor r.start = [] := by
      rw [List.extract_eq_take_drop, Nat.sub_eq_zero_of_le (Nat.le_of_not_lt gap), List.take_zero]
    simp [gap, marked, nothing]

theorem segments_singleton {text : List Char} {r : Range} (inside : r.stop ≤ text.length) :
    segments text [r] = segmentsFrom text 0 [r] := by
  have starts : r.start < text.length := Nat.lt_of_lt_of_le r.nonempty inside
  have whole : r.clamp? text.length = some r := by
    simp only [Range.clamp?, starts, dif_pos, Nat.min_eq_left inside]
  rw [segments, List.filterMap_cons_some whole, List.filterMap_nil, merge_singleton]

theorem within_singleton {low high : Nat} {r : Range} (after : low ≤ r.start) (before : r.stop ≤ high)
    (ordered : r.start - low < r.stop - low) :
    within low high [r] = [⟨r.start - low, r.stop - low, ordered⟩] := by
  simp [within, after, before]

/-- A range that lies in a part of a text is marked there as it would be in the text. -/
theorem marked_within {text : List Char} {low high : Nat} {r : Range} (after : low ≤ r.start)
    (before : r.stop ≤ high) (inText : high ≤ text.length) :
    (segments (text.extract low high) (within low high [r])).flatMap marked =
      text.extract low r.start ++ (">>>".toList ++ text.extract r.start r.stop ++ "<<<".toList) ++
        text.extract r.stop high := by
  have nonempty := r.nonempty
  have ordered : r.start - low < r.stop - low := by omega
  have fits : r.stop - low ≤ (text.extract low high).length := by
    rw [List.extract_eq_take_drop, List.length_take, List.length_drop]
    omega
  have left : (text.extract low high).extract 0 (r.start - low) = text.extract low r.start := by
    have anew := extract_extract text (Nat.le_refl low) (Nat.le_trans nonempty.le before)
    rwa [Nat.sub_self] at anew
  rw [within_singleton after before ordered, segments_singleton fits, marked_range, marked_end, left,
    extract_extract text after before, drop_extract text (Nat.le_trans after nonempty.le)]

theorem spelled_append (text more : List Char) : spelled (text ++ more) = spelled text ++ spelled more :=
  List.flatMap_append

theorem newline_notMem_spelled (text : List Char) : '\n' ∉ spelled text := by
  intro among
  obtain ⟨c, _, there⟩ := List.mem_flatMap.mp among
  split at there
  · exact absurd there (by decide)
  · rename_i other
    exact other (List.mem_singleton.mp there).symm

/-- The quotation of a range: up to thirty characters on either side of it, marks where it begins and
where it ends, and all of it on one line. -/
def quotation (text : List Char) (r : Range) : List Char :=
  spelled (text.extract (r.start - 30) r.start) ++ ">>>".toList ++
    spelled (text.extract r.start r.stop) ++ "<<<".toList ++
      spelled (text.extract r.stop (min text.length (r.stop + 30)))

theorem newline_notMem_quotation (text : List Char) (r : Range) : '\n' ∉ quotation text r := by
  have plain := newline_notMem_spelled
  simp [quotation, plain]

theorem snippet?_singleton {text : List Char} {r : Range} (inside : r.stop ≤ text.length) :
    snippet? text [r] = some (quotation text r) := by
  have before : r.stop ≤ min text.length (r.stop + context) := by omega
  have marks := marked_within (Nat.sub_le r.start context) before (Nat.min_le_left _ _)
  simp only [snippet?, List.head?_cons, Option.map_some, drop_take_eq_extract, marks]
  -- Line feeds are spelled out in the marked text as a whole; the marks themselves have none.
  simp only [quotation, context, spelled_append, List.append_assoc]
  rfl

def strictWithin (low high : Nat) (ranges : List Range) : Except (List InputError) (List Range) :=
  (ranges.filter fun r => low ≤ r.start ∧ r.stop ≤ high).mapM fun r =>
    Range.ofBounds ((r.start : Int) - low) ((r.stop : Int) - low)

theorem strictWithin_eq (low high : Nat) (ranges : List Range) :
    strictWithin low high ranges = .ok (within low high ranges) := by
  induction ranges with
  | nil => rfl
  | cons r rest ih =>
    unfold strictWithin within at ih ⊢
    by_cases inside : low ≤ r.start ∧ r.stop ≤ high
    · have nonempty := r.nonempty
      have ordered : r.start - low < r.stop - low := by omega
      have start : (r.start : Int) - low = (r.start - low : Nat) := by omega
      have stop : (r.stop : Int) - low = (r.stop - low : Nat) := by omega
      rw [List.filter_cons_of_pos (by simpa using inside), List.mapM_cons, start, stop,
        Range.ofBounds_of_lt ordered, ih, List.filterMap_cons_some (dif_pos inside)]
      rfl
    · rw [List.filter_cons_of_neg (by simpa using inside), ih, List.filterMap_cons_none (dif_neg inside)]

/-- The excerpt, with all that may go wrong on the way. -/
def strictSnippet? (text : List Char) : List Range → Except (List InputError) (Option (List Char))
  | [] => .ok none
  | first :: others => do
    let low := first.start - context
    let high := min text.length (first.stop + context)
    let part := (text.take high).drop low
    let segments ← strictSegments part (← strictWithin low high (first :: others))
    return some (spelled (segments.flatMap marked))

theorem strictSnippet?_eq (text : List Char) (ranges : List Range) :
    strictSnippet? text ranges = .ok (snippet? text ranges) := by
  cases ranges with
  | nil => rfl
  | cons first others =>
    simp only [strictSnippet?, strictWithin_eq, strictSegments_eq, bind, Except.bind]
    rfl

end PayloadCheck.Tool
