import Mathlib.Data.List.Chain
import PayloadCheck.Proofs.Highlight.Bounds

namespace PayloadCheck.Highlight

/-- Each range starts behind the end of the one before it, with a gap. -/
def Separated (ranges : List Range) : Prop := ranges.IsChain fun r s => r.stop < s.start

/-- Two lists of ranges cover the same offsets. -/
def SameCover (ranges others : List Range) : Prop := ∀ i, Covered ranges i ↔ Covered others i

theorem covered_nil (i : Nat) : ¬ Covered [] i := by
  rintro ⟨r, none, _⟩
  cases none

theorem covered_cons {r : Range} {ranges : List Range} {i : Nat} :
    Covered (r :: ranges) i ↔ r.Covers i ∨ Covered ranges i := by
  simp [Covered]

theorem covered_of_perm {ranges others : List Range} (same : ranges.Perm others) :
    SameCover ranges others :=
  fun _ => exists_congr fun _ => and_congr_left' same.mem_iff

/-- Ranges that start in order, the first of them at a given range or behind it. -/
def Ascending (current : Range) (ranges : List Range) : Prop :=
  (current :: ranges).Pairwise fun r s => r.start ≤ s.start

theorem Ascending.cons {current next : Range} {rest : List Range}
    (ascending : Ascending current (next :: rest)) :
    current.start ≤ next.start ∧ Ascending next rest := by
  obtain ⟨first, others⟩ := List.pairwise_cons.mp ascending
  exact ⟨first next List.mem_cons_self, others⟩

theorem Ascending.widen {current next : Range} {rest : List Range}
    (ascending : Ascending current (next :: rest)) {stop : Nat} (nonempty : current.start < stop) :
    Ascending ⟨current.start, stop, nonempty⟩ rest := by
  obtain ⟨first, others⟩ := List.pairwise_cons.mp ascending
  exact List.pairwise_cons.mpr
    ⟨fun r among => first r (List.mem_cons_of_mem _ among), (List.pairwise_cons.mp others).2⟩

theorem covered_absorb {current : Range} {ranges : List Range}
    (ascending : Ascending current ranges) (i : Nat) :
    Covered (absorb current ranges) i ↔ Covered (current :: ranges) i := by
  induction ranges generalizing current with
  | nil => rfl
  | cons next rest ih =>
    rw [absorb]
    split
    -- The joined range covers no offset between the two, for they overlap or touch.
    · rename_i touching
      have ordered := ascending.cons.1
      refine (ih (ascending.widen _)).trans ?_
      rw [covered_cons, covered_cons, covered_cons, ← or_assoc]
      refine or_congr_left ?_
      have := current.nonempty
      simp only [Range.Covers]
      omega
    · rw [covered_cons, ih ascending.cons.2, ← covered_cons]

/-- The first range starts where it did. -/
theorem absorb_head (current : Range) (ranges : List Range) :
    ∃ r rest, absorb current ranges = r :: rest ∧ r.start = current.start := by
  induction ranges generalizing current with
  | nil => exact ⟨current, [], rfl, rfl⟩
  | cons next rest ih =>
    rw [absorb]
    split
    · exact ih _
    · exact ⟨current, _, rfl, rfl⟩

theorem separated_absorb (current : Range) (ranges : List Range) :
    Separated (absorb current ranges) := by
  induction ranges generalizing current with
  | nil => exact .singleton current
  | cons next rest ih =>
    rw [absorb]
    split
    · exact ih _
    · rename_i apart
      obtain ⟨r, others, absorbed, start⟩ := absorb_head next rest
      have separated := ih next
      rw [absorbed] at separated ⊢
      exact .cons_cons (by omega) separated

theorem before_trans (r s t : Range) (first : r.before s = true) (second : s.before t = true) :
    r.before t = true := by
  simp only [Range.before, Bool.or_eq_true, Bool.and_eq_true, decide_eq_true_eq, beq_iff_eq] at *
  omega

theorem before_total (r s : Range) : (r.before s || s.before r) = true := by
  simp only [Range.before, Bool.or_eq_true, Bool.and_eq_true, decide_eq_true_eq, beq_iff_eq]
  omega

theorem start_le_of_before {r s : Range} (ordered : r.before s = true) : r.start ≤ s.start := by
  simp only [Range.before, Bool.or_eq_true, Bool.and_eq_true, decide_eq_true_eq, beq_iff_eq] at ordered
  omega

theorem ascending_mergeSort {ranges : List Range} {first : Range} {rest : List Range}
    (sorted : ranges.mergeSort Range.before = first :: rest) : Ascending first rest := by
  have ordered := List.pairwise_mergeSort before_trans before_total ranges
  rw [sorted] at ordered
  exact ordered.imp start_le_of_before

theorem covered_merge (ranges : List Range) : SameCover (merge ranges) ranges := by
  intro i
  have permuted := covered_of_perm (List.mergeSort_perm ranges Range.before) i
  rw [← permuted, merge]
  cases sorted : ranges.mergeSort Range.before with
  | nil => rfl
  | cons first rest => exact covered_absorb (ascending_mergeSort sorted) i

theorem separated_merge (ranges : List Range) : Separated (merge ranges) := by
  rw [merge]
  cases ranges.mergeSort Range.before with
  | nil => exact .nil
  | cons first rest => exact separated_absorb first rest

namespace Separated

theorem pairwise {ranges : List Range} (separated : Separated ranges) :
    ranges.Pairwise fun r s => r.stop < s.start := by
  have trans : Trans (fun r s : Range => r.stop < s.start) (fun r s => r.stop < s.start)
      (fun r s : Range => r.stop < s.start) :=
    ⟨fun {_ s _} first second => first.trans (s.nonempty.trans second)⟩
  exact List.isChain_iff_pairwise.mp separated

theorem sorted {ranges : List Range} (separated : Separated ranges) :
    ranges.Pairwise fun r s => r.before s = true := by
  refine separated.pairwise.imp fun {r s} apart => ?_
  have := r.nonempty
  have : r.start < s.start := by omega
  simp [Range.before, this]

theorem tail {r : Range} {ranges : List Range} (separated : Separated (r :: ranges)) :
    Separated ranges :=
  List.IsChain.tail separated

theorem behind {r : Range} {ranges : List Range} (separated : Separated (r :: ranges)) {i : Nat}
    (covered : Covered ranges i) : r.stop < i := by
  obtain ⟨s, among, covers⟩ := covered
  have apart := (List.pairwise_cons.mp separated.pairwise).1 s among
  exact Nat.lt_of_lt_of_le apart covers.1

/-- The first range of the normal form is the first run of covered offsets. -/
theorem head_le {r s : Range} {ranges others : List Range} (separated : Separated (r :: ranges))
    (separated' : Separated (s :: others))
    (same : SameCover (r :: ranges) (s :: others)) : r.start ≤ s.start ∧ r.stop ≤ s.stop := by
  have atStart := covered_cons.mp ((same s.start).mpr (covered_cons.mpr (.inl ⟨Nat.le_refl _, s.nonempty⟩)))
  have start : r.start ≤ s.start := by
    rcases atStart with covers | later
    · exact covers.1
    · exact Nat.le_of_lt (r.nonempty.trans (separated.behind later))
  refine ⟨start, Nat.le_of_not_lt fun longer => ?_⟩
  have := s.nonempty
  rcases covered_cons.mp ((same s.stop).mp (covered_cons.mpr (.inl ⟨by omega, longer⟩))) with
    covers | later
  · exact absurd covers.2 (Nat.lt_irrefl _)
  · exact absurd (separated'.behind later) (Nat.lt_irrefl _)

theorem sameCover_tail {r : Range} {ranges others : List Range} (separated : Separated (r :: ranges))
    (separated' : Separated (r :: others)) (same : SameCover (r :: ranges) (r :: others)) :
    SameCover ranges others := by
  intro i
  have whole := same i
  rw [covered_cons, covered_cons] at whole
  constructor
  · intro covered
    have behind := separated.behind covered
    exact (whole.mp (.inr covered)).resolve_left fun covers => absurd covers.2 (by omega)
  · intro covered
    have behind := separated'.behind covered
    exact (whole.mpr (.inr covered)).resolve_left fun covers => absurd covers.2 (by omega)

theorem unique {ranges others : List Range} (separated : Separated ranges)
    (separated' : Separated others) (same : SameCover ranges others) : ranges = others := by
  induction ranges generalizing others with
  | nil =>
    cases others with
    | nil => rfl
    | cons s others =>
      exact absurd ((same s.start).mpr (covered_cons.mpr (.inl ⟨Nat.le_refl _, s.nonempty⟩)))
        (covered_nil _)
  | cons r ranges ih =>
    cases others with
    | nil =>
      exact absurd ((same r.start).mp (covered_cons.mpr (.inl ⟨Nat.le_refl _, r.nonempty⟩)))
        (covered_nil _)
    | cons s others =>
      have mine := separated.head_le separated' same
      have its := separated'.head_le separated fun i => (same i).symm
      obtain rfl : r = s := by
        cases r
        cases s
        simp only [Range.mk.injEq]
        simp only at mine its
        omega
      rw [ih separated.tail separated'.tail (separated.sameCover_tail separated' same)]

end Separated

theorem merge_eq_of_sameCover {ranges others : List Range} (same : SameCover ranges others) :
    merge ranges = merge others :=
  (separated_merge ranges).unique (separated_merge others) fun i =>
    (covered_merge ranges i).trans ((same i).trans (covered_merge others i).symm)

/-- Merging covers what was covered, by ranges in order with a gap between any two, and no other list of
ranges does. So it depends on nothing but what is covered, and a list in normal form stays as it is.
Joining two ranges never fails. -/
theorem merge_canonical (ranges : List Range) :
    SameCover (merge ranges) ranges ∧
    (merge ranges).Pairwise (fun r s => r.before s = true) ∧
    Separated (merge ranges) ∧
    (∀ others, Separated others → SameCover others ranges → others = merge ranges) ∧
    (∀ others, others.Perm ranges → merge others = merge ranges) ∧
    (∀ others, SameCover others ranges → merge others = merge ranges) ∧
    merge (merge ranges) = merge ranges ∧
    strictMerge ranges = .ok (merge ranges) := by
  refine ⟨covered_merge ranges, (separated_merge ranges).sorted, separated_merge ranges,
    fun others separated same => ?_, fun others permuted => ?_, fun others same => ?_, ?_,
    strictMerge_eq ranges⟩
  · exact separated.unique (separated_merge ranges) fun i =>
      (same i).trans (covered_merge ranges i).symm
  · exact merge_eq_of_sameCover (covered_of_perm permuted)
  · exact merge_eq_of_sameCover same
  · exact merge_eq_of_sameCover (covered_merge ranges)

/-- Ranges that overlap, touch and lie in one another, out of order. -/
def scattered : List Range :=
  [⟨10, 12, by decide⟩, ⟨3, 6, by decide⟩, ⟨0, 3, by decide⟩, ⟨1, 5, by decide⟩]

theorem merge_canonical_scattered :
    let joined : List Range := [⟨0, 6, by decide⟩, ⟨10, 12, by decide⟩]
    Separated joined ∧ SameCover joined scattered ∧ joined = merge scattered ∧
      scattered.reverse.Perm scattered ∧ merge scattered.reverse = joined ∧ merge joined = joined := by
  intro joined
  obtain ⟨_, _, _, only, permuted, covering, _⟩ := merge_canonical scattered
  have separated : Separated joined := .cons_cons (by decide) (.singleton _)
  have same : SameCover joined scattered := by
    intro i
    simp only [joined, scattered, covered_cons, Range.Covers, covered_nil, or_false]
    omega
  have merged := only joined separated same
  have reversed := List.reverse_perm scattered
  exact ⟨separated, same, merged, reversed, (permuted _ reversed).trans merged.symm,
    (covering joined same).trans merged.symm⟩

end PayloadCheck.Highlight
