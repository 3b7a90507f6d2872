import Mathlib.Data.List.Basic
import PayloadCheck.Text.Position

namespace PayloadCheck.Text

/-- The offset at which a line begins: that of the text for the first line, and behind the line feed that
ends the line before for any other. -/
def lineStart (text : List Char) (line : Nat) : Nat :=
  if line ≤ 1 then 0 else text.idxOfNth '\n' (line - 2) + 1

/-- The offset at which a line ends: that of its line feed, or that of the end of the text. -/
def lineEnd (text : List Char) (line : Nat) : Nat := text.idxOfNth '\n' (line - 1)

/-- A position comes before another one in a text. -/
def Position.Before (p q : Position) : Prop := p.line < q.line ∨ p.line = q.line ∧ p.column < q.column

/-- A position names an offset: as many line feeds lie before the offset as lines before its own, and the
column counts from where the line begins and does not go past its end. -/
structure Position.Names (p : Position) (text : List Char) (offset : Nat) : Prop where
  line : p.line = 1 + (text.take offset).count '\n'
  column : 1 ≤ p.column
  place : (offset : Int) = p.column - 1 + lineStart text p.line.toNat
  withinLine : offset ≤ lineEnd text p.line.toNat

/-- The last line of a text is all of it, or stands behind the last line feed. -/
theorem lastLine_split (text : List Char) :
    '\n' ∉ lastLine text ∧ (text = lastLine text ∨ ∃ front, text = front ++ '\n' :: lastLine text) := by
  have plain : ∀ c ∈ text.reverse.takeWhile (· ≠ '\n'), c ≠ '\n' := fun c among => by
    simpa using List.all_eq_true.mp List.all_takeWhile c among
  have whole : text = (text.reverse.dropWhile (· ≠ '\n')).reverse ++ lastLine text := by
    rw [lastLine, ← List.reverse_append, List.takeWhile_append_dropWhile, List.reverse_reverse]
  refine ⟨fun among => plain _ (List.mem_reverse.mp among) rfl, ?_⟩
  cases rest : text.reverse.dropWhile (· ≠ '\n') with
  | nil =>
    rw [rest] at whole
    exact .inl whole
  | cons c front =>
    have feed : c = '\n' := by
      have first := List.head?_dropWhile_not (· ≠ '\n') text.reverse
      rw [rest] at first
      simpa using first
    rw [rest, feed, List.reverse_cons, List.append_assoc] at whole
    exact .inr ⟨front.reverse, whole⟩

/-- The line feed behind a text is the one that as many come before as the text has. -/
theorem idxOfNth_feed (front rest : List Char) :
    (front ++ '\n' :: rest).idxOfNth '\n' (front.count '\n') = front.length := by
  have before : (front ++ '\n' :: rest).countBefore '\n' front.length = front.count '\n' := by
    rw [List.countBefore_eq_count_take, List.take_left]
  rw [← before]
  exact List.idxOfNth_countBefore_of_lt_length_of_beq (h := by simp) (by simp)

/-- A line begins as far before an offset in it as the text up to the offset has behind its last line feed. -/
theorem lineStart_add_lastLine (before rest : List Char) :
    lineStart (before ++ rest) (before.count '\n' + 1) + (lastLine before).length = before.length := by
  obtain ⟨plain, whole | ⟨front, whole⟩⟩ := lastLine_split before
  · have none : before.count '\n' = 0 := List.count_eq_zero.mpr (whole ▸ plain)
    rw [none, lineStart, if_pos (Nat.le_refl 1), ← whole, Nat.zero_add]
  · have feeds : before.count '\n' = front.count '\n' + 1 := by
      rw [whole, List.count_append, List.count_cons_self, List.count_eq_zero.mpr plain]
    have earlier : ¬ before.count '\n' + 1 ≤ 1 := by omega
    have place : (before ++ rest).idxOfNth '\n' (before.count '\n' + 1 - 2) = front.length := by
      rw [feeds, whole, List.append_assoc, List.cons_append]
      exact idxOfNth_feed front _
    have length := congrArg List.length whole
    rw [List.length_append, List.length_cons] at length
    rw [lineStart, if_neg earlier, place]
    omega

theorem countBefore_mono (text : List Char) {i j : Nat} (le : i ≤ j) :
    text.countBefore '\n' i ≤ text.countBefore '\n' j :=
  List.countPBefore_mono le

/-- An offset lies in the line that the line feeds before it give. -/
theorem le_lineEnd {text : List Char} {offset : Nat} (inside : offset ≤ text.length) :
    offset ≤ lineEnd text (text.countBefore '\n' offset + 1) := by
  rw [lineEnd, Nat.add_sub_cancel]
  refine Nat.le_of_not_lt fun past => ?_
  have feed : text.idxOfNth '\n' (text.countBefore '\n' offset) < text.length := Nat.lt_of_lt_of_le past inside
  -- One more line feed lies before the offset than are counted.
  have counted := List.countBefore_idxOfNth_of_lt_count (List.idxOfNth_lt_length_iff.mp feed)
  have next : text.countBefore '\n' (text.idxOfNth '\n' (text.countBefore '\n' offset) + 1) =
      text.countBefore '\n' offset + 1 := by
    rw [List.countBefore_eq_count_take, List.take_add_one, List.count_append,
      ← List.countBefore_eq_count_take, counted, List.getElem?_eq_getElem feed, List.getElem_idxOfNth_eq]
    rfl
  have upTo : text.idxOfNth '\n' (text.countBefore '\n' offset) + 1 ≤ offset := past
  have most := countBefore_mono text upTo
  omega

theorem position_names {text : List Char} {offset : Nat} (inside : offset ≤ text.length) :
    (position text offset).Names text offset := by
  have length : (text.take offset).length = offset := List.length_take_of_le inside
  have start := lineStart_add_lastLine (text.take offset) (text.drop offset)
  rw [List.take_append_drop, length] at start
  have last := le_lineEnd inside
  rw [List.countBefore_eq_count_take] at last
  have line : (position text offset).line = ((text.take offset).count '\n' + 1 : Nat) := by
    simp only [position, cut_natCast inside]
    rfl
  have column : (position text offset).column = (lastLine (text.take offset)).length + 1 := by
    simp only [position, cut_natCast inside, length]
    omega
  refine ⟨by omega, by omega, ?_, ?_⟩
  · rw [line, column, Int.toNat_natCast]
    omega
  · rw [line, Int.toNat_natCast]
    exact last

theorem Position.Names.before {text : List Char} {p q : Position} {i j : Nat} (first : p.Names text i)
    (second : q.Names text j) (lt : i < j) : p.Before q := by
  have feeds := countBefore_mono text (Nat.le_of_lt lt)
  rw [List.countBefore_eq_count_take, List.countBefore_eq_count_take] at feeds
  have line := first.line
  have line' := second.line
  by_cases same : p.line = q.line
  · have place := first.place
    have place' := second.place
    rw [← same] at place'
    exact .inr ⟨same, by omega⟩
  · exact .inl (by omega)

theorem Position.Before.asymm {p q : Position} (before : p.Before q) : ¬ q.Before p := by
  unfold Before at *
  omega

theorem Position.Before.ne {p q : Position} (before : p.Before q) : p ≠ q := by
  rintro rfl
  exact before.asymm before

/-- A position tells its offset: the line is known by the line feeds before the offset, and the column
counts from where that line begins. No two offsets have the same position, and positions come in the order
of their offsets. -/
theorem position_determines {text : List Char} {offset : Int} (start : 0 ≤ offset)
    (inside : offset ≤ text.length) :
    (position text offset).Names text offset.toNat ∧
      ∀ other : Int, 0 ≤ other → other ≤ text.length →
        ((position text offset).Before (position text other) ↔ offset < other) ∧
        (position text offset = position text other → offset = other) := by
  obtain ⟨i, rfl⟩ := Int.eq_ofNat_of_zero_le start
  have names : (position text i).Names text i := position_names (by omega)
  refine ⟨names, fun other otherStart otherInside => ?_⟩
  obtain ⟨j, rfl⟩ := Int.eq_ofNat_of_zero_le otherStart
  have names' : (position text j).Names text j := position_names (by omega)
  rcases Nat.lt_trichotomy i j with lt | rfl | gt
  · have before := names.before names' lt
    exact ⟨iff_of_true before (by omega), fun same => absurd same before.ne⟩
  · exact ⟨iff_of_false (fun before => before.ne rfl) (by omega), fun _ => rfl⟩
  · have before := names'.before names gt
    exact ⟨iff_of_false before.asymm (by omega), fun same => absurd same.symm before.ne⟩

/-- An empty line: one offset on its line feed, the next behind it. -/
theorem position_determines_emptyLine :
    (0 : Int) ≤ 2 ∧ (2 : Int) ≤ ['a', '\n', '\n', 'b'].length ∧
      (position ['a', '\n', '\n', 'b'] 2).Names ['a', '\n', '\n', 'b'] 2 ∧
      position ['a', '\n', '\n', 'b'] 2 = ⟨2, 1⟩ ∧
      (0 : Int) ≤ 3 ∧ (3 : Int) ≤ ['a', '\n', '\n', 'b'].length ∧
      (position ['a', '\n', '\n', 'b'] 2).Before (position ['a', '\n', '\n', 'b'] 3) := by
  have within : (2 : Int) ≤ ['a', '\n', '\n', 'b'].length := by decide
  have within' : (3 : Int) ≤ ['a', '\n', '\n', 'b'].length := by decide
  obtain ⟨names, others⟩ := position_determines (by decide : (0 : Int) ≤ 2) within
  exact ⟨by decide, within, names, by decide, by decide, within',
    (others 3 (by decide) within').1.mpr (by decide)⟩

end PayloadCheck.Text
