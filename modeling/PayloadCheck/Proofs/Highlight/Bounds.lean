import PayloadCheck.Outcome

namespace PayloadCheck.Highlight

theorem Range.ofBounds_of_lt {start stop : Nat} (ordered : start < stop) :
    Range.ofBounds start stop = .ok ⟨start, stop, ordered⟩ := by
  have low : ¬ (start : Int) < 0 := by omega
  have high : ¬ (stop : Int) < 1 := by omega
  simp [Range.ofBounds, low, high, ordered]

theorem runBefore_le (belongs : Char → Bool) (text : List Char) (offset : Nat) :
    runBefore belongs text offset ≤ offset := by
  have taken := (List.takeWhile_prefix (l := (text.take offset).reverse) belongs).length_le
  rw [List.length_reverse, List.length_take] at taken
  exact Nat.le_trans taken (Nat.min_le_left _ _)

theorem runFrom_le (belongs : Char → Bool) (text : List Char) (offset : Nat) :
    runFrom belongs text offset ≤ text.length - offset := by
  have taken := (List.takeWhile_prefix (l := text.drop offset) belongs).length_le
  rw [List.length_drop] at taken
  exact taken

theorem tokenAt_stop_le {text : List Char} {offset : Nat} (inside : offset < text.length) :
    (tokenAt text offset).stop ≤ text.length := by
  have before := runBefore_le isToken text offset
  have behind := runFrom_le isToken text offset
  simp only [tokenAt]
  omega

def strictTokenAt (text : List Char) (offset : Nat) : Except (List InputError) Range :=
  let start := offset - runBefore isToken text offset
  let stop := offset + runFrom isToken text offset
  Range.ofBounds start (if start = stop then min (start + 1) text.length else stop : Nat)

theorem strictTokenAt_eq {text : List Char} {offset : Nat} (inside : offset < text.length) :
    strictTokenAt text offset = .ok (tokenAt text offset) := by
  have before := runBefore_le isToken text offset
  have stop : (if offset - runBefore isToken text offset = offset + runFrom isToken text offset then
      min (offset - runBefore isToken text offset + 1) text.length
      else offset + runFrom isToken text offset) = (tokenAt text offset).stop := by
    simp only [tokenAt]
    split <;> omega
  simp only [strictTokenAt, stop]
  exact Range.ofBounds_of_lt (tokenAt text offset).nonempty

def strictRangeAt (text : List Char) (offset : Nat) (c : Char) : Except (List InputError) Range :=
  if isSpace c then
    let left := offset - runBefore isSpace text offset
    let right := offset + runFrom isSpace text offset
    if precededBy (!isStructural ·) text left then strictTokenAt text left
    else if text[right]?.any (!isStructural ·) then strictTokenAt text right
    else Range.ofBounds offset (offset + 1 : Nat)
  else strictTokenAt text offset

theorem lt_length_of_any {text : List Char} {i : Nat} {belongs : Char → Bool}
    (found : text[i]?.any belongs = true) : i < text.length := by
  cases atIndex : text[i]? with
  | none => simp [atIndex] at found
  | some c => exact (List.getElem?_eq_some_iff.mp atIndex).1

/-- The range at an offset inside the text ends there too, and its bounds are accepted. -/
theorem rangeAt_spec {text : List Char} {offset : Nat} (inside : offset < text.length) (c : Char) :
    (rangeAt text offset c).stop ≤ text.length ∧
      strictRangeAt text offset c = .ok (rangeAt text offset c) := by
  unfold rangeAt strictRangeAt
  by_cases space : isSpace c = true
  · simp only [space, if_true]
    have left : offset - runBefore isSpace text offset < text.length := by omega
    split
    · exact ⟨tokenAt_stop_le left, strictTokenAt_eq left⟩
    · split
      · rename_i found
        have right := lt_length_of_any found
        exact ⟨tokenAt_stop_le right, strictTokenAt_eq right⟩
      · exact ⟨inside, Range.ofBounds_of_lt (Nat.lt_succ_self offset)⟩
  · simp only [space]
    exact ⟨tokenAt_stop_le inside, strictTokenAt_eq inside⟩

def strictLocate (text : List Char) : Option Int → Except (List InputError) (List Range)
  | none => .ok []
  | some offset =>
    if offset < 0 then .ok []
    else
      match text[offset.toNat]? with
      | some c => do return [← strictRangeAt text offset.toNat c]
      | none => .ok []

theorem strictLocate_eq (text : List Char) (offset : Option Int) :
    strictLocate text offset = .ok (locate text offset) := by
  cases offset with
  | none => rfl
  | some offset =>
    unfold strictLocate locate
    by_cases negative : offset < 0
    · simp only [negative, if_true]
    · simp only [negative, if_false]
      cases found : text[offset.toNat]? with
      | none => rfl
      | some c =>
        have inside := (List.getElem?_eq_some_iff.mp found).1
        simp only [(rangeAt_spec inside c).2]
        rfl

def strictAbsorb (current : Range) : List Range → Except (List InputError) (List Range)
  | [] => .ok [current]
  | next :: rest =>
    if next.start ≤ current.stop then do
      let joined ← Range.ofBounds current.start (max current.stop next.stop : Nat)
      strictAbsorb joined rest
    else do return current :: (← strictAbsorb next rest)

theorem strictAbsorb_eq (current : Range) (ranges : List Range) :
    strictAbsorb current ranges = .ok (absorb current ranges) := by
  induction ranges generalizing current with
  | nil => rfl
  | cons next rest ih =>
    rw [strictAbsorb, absorb]
    split
    · have ordered : current.start < max current.stop next.stop := by
        have := current.nonempty
        omega
      rw [Range.ofBounds_of_lt ordered]
      exact ih _
    · rw [ih]
      rfl

def strictMerge (ranges : List Range) : Except (List InputError) (List Range) :=
  match ranges.mergeSort Range.before with
  | [] => .ok []
  | first :: rest => strictAbsorb first rest

theorem strictMerge_eq (ranges : List Range) : strictMerge ranges = .ok (merge ranges) := by
  unfold strictMerge merge
  cases ranges.mergeSort Range.before with
  | nil => rfl
  | cons first rest => exact strictAbsorb_eq first rest

theorem merge_nil : merge [] = [] := by
  simp [merge]

theorem merge_singleton (r : Range) : merge [r] = [r] := by
  simp [merge, absorb]

end PayloadCheck.Highlight

namespace PayloadCheck

open Highlight

def strictErrorRanges (text : List Char) (d : Diagnosis) :
    Except (List InputError) (List Highlight.Range) := do
  strictMerge (← strictLocate text d.offset?)

theorem strictErrorRanges_eq (text : List Char) (d : Diagnosis) :
    strictErrorRanges text d = .ok (errorRanges text d) := by
  rw [strictErrorRanges, strictLocate_eq]
  exact strictMerge_eq _

theorem errorRanges_of_no_offset (text : List Char) {d : Diagnosis} (unplaced : d.offset? = none) :
    errorRanges text d = [] := by
  rw [errorRanges, unplaced, locate, merge_nil]

theorem errorRanges_at_end {text : List Char} {d : Diagnosis}
    (placed : d.offset? = some (text.length : Int)) : errorRanges text d = [] := by
  have nothing : text[(text.length : Int).toNat]? = none := by simp
  have inText : ¬ (text.length : Int) < 0 := by omega
  rw [errorRanges, placed, locate, if_neg inText, nothing]
  exact merge_nil

/-- An offset before the end of the text gives one range inside the text. -/
theorem errorRanges_inside {text : List Char} {d : Diagnosis} {offset : Nat}
    (placed : d.offset? = some (offset : Int)) (inside : offset < text.length) :
    ∃ r : Highlight.Range, errorRanges text d = [r] ∧ r.stop ≤ text.length := by
  have found : text[(offset : Int).toNat]? = some text[offset] := by simp [inside]
  have inText : ¬ (offset : Int) < 0 := by omega
  refine ⟨rangeAt text offset text[offset], ?_, (rangeAt_spec inside _).1⟩
  rw [errorRanges, placed, locate, if_neg inText, found]
  exact merge_singleton _

end PayloadCheck
