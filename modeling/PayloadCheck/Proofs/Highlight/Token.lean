import PayloadCheck.Proofs.Highlight.Bounds

namespace PayloadCheck.Highlight

/-- The character at an offset is of a class. -/
def At (belongs : Char → Bool) (text : List Char) (i : Nat) : Prop :=
  ∃ c, text[i]? = some c ∧ belongs c = true

/-- The character before an offset is of a class. -/
def Before (belongs : Char → Bool) (text : List Char) (i : Nat) : Prop :=
  0 < i ∧ At belongs text (i - 1)

/-- A range of characters of a class that cannot be extended on either side. -/
structure IsRun (belongs : Char → Bool) (text : List Char) (r : Range) : Prop where
  inside : ∀ i, r.Covers i → At belongs text i
  left : ¬ Before belongs text r.start
  right : ¬ At belongs text r.stop

/-- The token that an offset points to. A structural character points to the token that ends at it;
white space to the one that ends where it begins, and without one to the one that begins where it ends. -/
inductive Pointed (text : List Char) (offset : Nat) : Range → Prop
  | inside {r : Range} : IsRun isToken text r → r.Covers offset → Pointed text offset r
  | behind {r : Range} :
      At isStructural text offset → IsRun isToken text r → r.stop = offset → Pointed text offset r
  | left {r gap : Range} :
      IsRun isSpace text gap → gap.Covers offset → IsRun isToken text r → r.stop = gap.start →
      Pointed text offset r
  | right {r gap : Range} :
      IsRun isSpace text gap → gap.Covers offset → ¬ Before isToken text gap.start →
      IsRun isToken text r → r.start = gap.stop → Pointed text offset r

/-- No token is next to the structural character at an offset, or to the white space around it. -/
inductive Alone (text : List Char) (offset : Nat) : Prop
  | structural : At isStructural text offset → ¬ Before isToken text offset → Alone text offset
  | space {gap : Range} :
      IsRun isSpace text gap → gap.Covers offset → ¬ Before isToken text gap.start →
      ¬ At isToken text gap.stop → Alone text offset

/-- The range of a single character. -/
def lone (offset : Nat) : Range := ⟨offset, offset + 1, Nat.lt_succ_self offset⟩

section Runs

variable {belongs : Char → Bool} {text : List Char} {i : Nat}

theorem At.lt_length (found : At belongs text i) : i < text.length := by
  obtain ⟨c, atIndex, _⟩ := found
  exact (List.getElem?_eq_some_iff.mp atIndex).1

theorem at_cons_zero {c : Char} : At belongs (c :: text) 0 ↔ belongs c = true := by
  simp [At]

theorem at_cons_succ {c : Char} : At belongs (c :: text) (i + 1) ↔ At belongs text i := by
  simp [At]

theorem all_at_cons {c : Char} {n : Nat} :
    (∀ j < n + 1, At belongs (c :: text) j) ↔ belongs c = true ∧ ∀ j < n, At belongs text j := by
  constructor
  · intro all
    exact ⟨at_cons_zero.mp (all 0 (Nat.succ_pos n)),
      fun j lt => at_cons_succ.mp (all (j + 1) (Nat.succ_lt_succ lt))⟩
  · rintro ⟨first, others⟩ j lt
    cases j with
    | zero => exact at_cons_zero.mpr first
    | succ j => exact at_cons_succ.mpr (others j (Nat.lt_of_succ_lt_succ lt))

theorem length_takeWhile_eq {n : Nat} :
    (text.takeWhile belongs).length = n ↔
      (∀ j < n, At belongs text j) ∧ ¬ At belongs text n := by
  induction text generalizing n with
  | nil =>
    cases n with
    | zero => simp [At]
    | succ n =>
      refine iff_of_false nofun fun both => ?_
      obtain ⟨c, none, _⟩ := both.1 0 (Nat.succ_pos n)
      cases none
  | cons c text ih =>
    cases first : belongs c with
    | false =>
      have other : ¬ belongs c = true := by rw [first]; exact Bool.false_ne_true
      rw [List.takeWhile_cons_of_neg other]
      cases n with
      | zero => exact iff_of_true rfl ⟨nofun, mt at_cons_zero.mp other⟩
      | succ n => exact iff_of_false nofun fun both => other (all_at_cons.mp both.1).1
    | true =>
      rw [List.takeWhile_cons_of_pos first, List.length_cons]
      cases n with
      | zero => exact iff_of_false (Nat.succ_ne_zero _) fun both => both.2 (at_cons_zero.mpr first)
      | succ n => rw [Nat.add_right_cancel_iff, ih, all_at_cons, at_cons_succ, and_iff_right first]

theorem runFrom_eq {n : Nat} :
    runFrom belongs text i = n ↔
      (∀ j < n, At belongs text (i + j)) ∧ ¬ At belongs text (i + n) := by
  rw [runFrom, length_takeWhile_eq]
  simp only [At, List.getElem?_drop]

theorem runBefore_eq {n : Nat} (inside : i ≤ text.length) (few : n ≤ i) :
    runBefore belongs text i = n ↔
      (∀ j < n, At belongs text (i - 1 - j)) ∧ ¬ Before belongs text (i - n) := by
  have mirrored : ∀ j < i, (text.take i).reverse[j]? = text[i - 1 - j]? := by
    intro j lt
    have taken : (text.take i).length = i := by simp [inside]
    rw [List.getElem?_reverse (by omega), taken, List.getElem?_take_of_lt (by omega)]
  rw [runBefore, length_takeWhile_eq]
  refine and_congr (forall₂_congr fun j lt => ?_) (not_congr ?_)
  · rw [At, mirrored j (by omega)]
    rfl
  · rcases Nat.lt_or_eq_of_le few with lt | rfl
    · rw [Before, At, mirrored n lt, Nat.sub_right_comm]
      exact (and_iff_right (by omega)).symm
    · simp [Before, At, inside]

theorem precededBy_iff (inside : i ≤ text.length) :
    precededBy belongs text i = true ↔ Before belongs text i := by
  have taken : (text.take i).length = i := by simp [inside]
  rw [precededBy, List.getLast?_eq_getElem?, taken, Option.any_eq_true]
  cases i with
  | zero => simp [Before]
  | succ k => simp [Before, At]

namespace IsRun

variable {r s : Range} (run : IsRun belongs text r)
include run

/-- What a run measures from a place in it, or at one of its ends. -/
theorem measures (from_start : r.start ≤ i) (to_stop : i ≤ r.stop) :
    i - runBefore belongs text i = r.start ∧ i + runFrom belongs text i = r.stop := by
  have nonempty := r.nonempty
  have last := (run.inside (r.stop - 1) ⟨by omega, by omega⟩).lt_length
  have before : runBefore belongs text i = i - r.start := by
    refine (runBefore_eq (by omega) (by omega)).mpr ⟨fun j lt => ?_, ?_⟩
    · exact run.inside _ ⟨by omega, by omega⟩
    · rw [Nat.sub_sub_self from_start]
      exact run.left
  have behind : runFrom belongs text i = r.stop - i := by
    refine runFrom_eq.mpr ⟨fun j lt => run.inside _ ⟨by omega, by omega⟩, ?_⟩
    rw [Nat.add_sub_cancel' to_stop]
    exact run.right
  omega

theorem unique (other : IsRun belongs text s) (mine : r.Covers i) (its : s.Covers i) : r = s := by
  obtain ⟨start, stop⟩ := run.measures mine.1 (Nat.le_of_lt mine.2)
  obtain ⟨start', stop'⟩ := other.measures its.1 (Nat.le_of_lt its.2)
  cases r
  cases s
  simp_all

theorem stop_le : r.stop ≤ text.length := by
  have nonempty := r.nonempty
  have last := (run.inside (r.stop - 1) ⟨by omega, by omega⟩).lt_length
  omega

/-- A run that reaches an offset outside its class ends there. -/
theorem stop_eq (reaches : r.Covers (i - 1)) (other : ¬ At belongs text i) : r.stop = i := by
  refine Decidable.byContradiction fun apart => ?_
  obtain ⟨low, high⟩ := reaches
  exact other (run.inside i ⟨by omega, by omega⟩)

/-- A run that covers an offset behind another class begins there. -/
theorem start_eq (covers : r.Covers i) (other : ¬ Before belongs text i) : r.start = i := by
  refine Decidable.byContradiction fun apart => ?_
  obtain ⟨low, high⟩ := covers
  exact other ⟨by omega, run.inside (i - 1) ⟨by omega, by omega⟩⟩

theorem at_start : At belongs text r.start :=
  run.inside _ ⟨Nat.le_refl _, r.nonempty⟩

theorem before_stop : Before belongs text r.stop := by
  have nonempty := r.nonempty
  exact ⟨by omega, run.inside _ ⟨by omega, by omega⟩⟩

end IsRun

/-- Every character of a class lies in a run of it. -/
theorem At.run (found : At belongs text i) : ∃ r, IsRun belongs text r ∧ r.Covers i := by
  have short := runBefore_le belongs text i
  obtain ⟨before, left⟩ := (runBefore_eq (Nat.le_of_lt found.lt_length) short).mp rfl
  obtain ⟨behind, right⟩ := runFrom_eq.mp (rfl : runFrom belongs text i = _)
  have some_behind : 0 < runFrom belongs text i := by
    refine Nat.pos_of_ne_zero fun none => right ?_
    rwa [none, Nat.add_zero]
  refine ⟨⟨i - runBefore belongs text i, i + runFrom belongs text i, by omega⟩, ⟨?_, left, right⟩,
    by simp only [Range.Covers]; omega⟩
  rintro j ⟨low, high⟩
  simp only at low high
  by_cases earlier : j < i
  · have place : i - 1 - (i - 1 - j) = j := by omega
    exact place ▸ before (i - 1 - j) (by omega)
  · have place : i + (j - i) = j := by omega
    exact place ▸ behind (j - i) (by omega)

end Runs

section Classes

variable {text : List Char} {i : Nat}

theorem isStructural_iff {c : Char} :
    isStructural c = true ↔ c ∈ ['\x7b', '\x7d', '[', ']', ',', ':'] := by
  simp [isStructural, or_assoc]

theorem isSpace_iff {c : Char} : isSpace c = true ↔ c ∈ [' ', '\t', '\n', '\r'] := by
  simp [isSpace, or_assoc]

theorem isToken_iff {c : Char} : isToken c = true ↔ isStructural c = false ∧ isSpace c = false := by
  simp [isToken]

theorem not_space_of_structural {c : Char} (structural : isStructural c = true) : isSpace c = false := by
  simp only [isStructural, Bool.or_eq_true, beq_iff_eq] at structural
  rcases structural with ((((rfl | rfl) | rfl) | rfl) | rfl) | rfl <;> decide

/-- Classes without a common character meet at no offset. -/
theorem At.not_at {belongs others : Char → Bool} (found : At belongs text i)
    (apart : ∀ c, belongs c = true → others c = false) : ¬ At others text i := by
  rintro ⟨d, again, other⟩
  obtain ⟨c, here, first⟩ := found
  obtain rfl := Option.some.inj (here.symm.trans again)
  rw [apart c first] at other
  exact Bool.false_ne_true other

theorem At.not_token_of_structural (structural : At isStructural text i) : ¬ At isToken text i :=
  structural.not_at fun _ first => by simp [isToken, first]

theorem At.not_token_of_space (space : At isSpace text i) : ¬ At isToken text i :=
  space.not_at fun _ first => by simp [isToken, first]

theorem At.not_space_of_structural (structural : At isStructural text i) : ¬ At isSpace text i :=
  structural.not_at fun _ first => Highlight.not_space_of_structural first

theorem at_of_lt (inside : i < text.length) :
    At isToken text i ∨ At isStructural text i ∨ At isSpace text i := by
  have found : text[i]? = some text[i] := List.getElem?_eq_getElem inside
  by_cases structural : isStructural text[i] = true
  · exact .inr (.inl ⟨_, found, structural⟩)
  · by_cases space : isSpace text[i] = true
    · exact .inr (.inr ⟨_, found, space⟩)
    · exact .inl ⟨_, found, isToken_iff.mpr ⟨by simpa using structural, by simpa using space⟩⟩

/-- Where white space cannot go on, what is not structural is a token. -/
theorem at_not_structural (noSpace : ¬ At isSpace text i) :
    At (!isStructural ·) text i ↔ At isToken text i := by
  refine exists_congr fun c => and_congr_right fun found => ?_
  have visible : isSpace c = false := Bool.of_not_eq_true fun space => noSpace ⟨c, found, space⟩
  simp [isToken, visible]

theorem before_not_structural (noSpace : ¬ Before isSpace text i) :
    Before (!isStructural ·) text i ↔ Before isToken text i :=
  and_congr_right fun positive => at_not_structural fun space => noSpace ⟨positive, space⟩

end Classes

section Ranges

variable {text : List Char} {offset : Nat} {r : Range}

theorem tokenAt_of_run (run : IsRun isToken text r) (from_start : r.start ≤ offset)
    (to_stop : offset ≤ r.stop) : tokenAt text offset = r := by
  obtain ⟨start, stop⟩ := run.measures from_start to_stop
  have nonempty := r.nonempty
  simp only [tokenAt, start, stop]
  cases r
  simp only [Range.mk.injEq, true_and]
  omega

theorem tokenAt_of_none (inside : offset ≤ text.length) (before : ¬ Before isToken text offset)
    (here : ¬ At isToken text offset) : tokenAt text offset = lone offset := by
  have left : runBefore isToken text offset = 0 :=
    (runBefore_eq inside (Nat.zero_le _)).mpr ⟨nofun, before⟩
  have right : runFrom isToken text offset = 0 := runFrom_eq.mpr ⟨nofun, here⟩
  simp only [tokenAt, lone, left, right, Range.mk.injEq]
  omega

theorem locate_of_lt (inside : offset < text.length) :
    locate text (some (offset : Int)) = [rangeAt text offset text[offset]] := by
  have natural : ¬ (offset : Int) < 0 := by omega
  simp only [locate, natural, if_false, Int.toNat_natCast, List.getElem?_eq_getElem inside]

theorem locate_of_not_space (inside : offset < text.length) (visible : ¬ At isSpace text offset) :
    locate text (some (offset : Int)) = [tokenAt text offset] := by
  have other : ¬ isSpace text[offset] = true :=
    fun space => visible ⟨_, List.getElem?_eq_getElem inside, space⟩
  rw [locate_of_lt inside, rangeAt, if_neg other]

theorem locate_of_space {gap : Range} (run : IsRun isSpace text gap) (covers : gap.Covers offset) :
    (Before isToken text gap.start →
      locate text (some (offset : Int)) = [tokenAt text gap.start]) ∧
    (¬ Before isToken text gap.start → At isToken text gap.stop →
      locate text (some (offset : Int)) = [tokenAt text gap.stop]) ∧
    (¬ Before isToken text gap.start → ¬ At isToken text gap.stop →
      locate text (some (offset : Int)) = [lone offset]) := by
  obtain ⟨c, found, space⟩ := run.inside offset covers
  obtain ⟨inside, rfl⟩ := List.getElem?_eq_some_iff.mp found
  obtain ⟨start, stop⟩ := run.measures covers.1 (Nat.le_of_lt covers.2)
  have onLeft : precededBy (!isStructural ·) text gap.start = true ↔ Before isToken text gap.start := by
    have := run.stop_le
    have := gap.nonempty
    rw [precededBy_iff (by omega), before_not_structural run.left]
  have onRight : text[gap.stop]?.any (!isStructural ·) = true ↔ At isToken text gap.stop := by
    rw [Option.any_eq_true, ← at_not_structural run.right]
    rfl
  rw [locate_of_lt inside, rangeAt, if_pos space]
  dsimp only
  rw [start, stop]
  refine ⟨fun left => ?_, fun noLeft right => ?_, fun noLeft noRight => ?_⟩
  · rw [if_pos (onLeft.mpr left)]
  · rw [if_neg (mt onLeft.mp noLeft), if_pos (onRight.mpr right)]
  · rw [if_neg (mt onLeft.mp noLeft), if_neg (mt onRight.mp noRight)]
    rfl

theorem Pointed.run (pointed : Pointed text offset r) : IsRun isToken text r := by
  cases pointed with
  | inside run _ => exact run
  | behind _ run _ => exact run
  | left _ _ run _ => exact run
  | right _ _ _ run _ => exact run

theorem Pointed.locate_eq (pointed : Pointed text offset r) :
    locate text (some (offset : Int)) = [r] := by
  have nonempty := r.nonempty
  cases pointed with
  | inside run covers =>
    have token := run.inside offset covers
    rw [locate_of_not_space token.lt_length fun space => space.not_token_of_space token,
      tokenAt_of_run run covers.1 (Nat.le_of_lt covers.2)]
  | behind structural run ends =>
    subst ends
    rw [locate_of_not_space structural.lt_length structural.not_space_of_structural,
      tokenAt_of_run run (by omega) (Nat.le_refl _)]
  | left space covers run ends =>
    rw [(locate_of_space space covers).1 (ends ▸ run.before_stop), ← ends,
      tokenAt_of_run run (by omega) (Nat.le_refl _)]
  | right space covers noLeft run begins =>
    rw [(locate_of_space space covers).2.1 noLeft (begins ▸ run.at_start), ← begins,
      tokenAt_of_run run (Nat.le_refl _) (by omega)]

theorem Alone.locate_eq (alone : Alone text offset) :
    locate text (some (offset : Int)) = [lone offset] := by
  cases alone with
  | structural here before =>
    rw [locate_of_not_space here.lt_length here.not_space_of_structural,
      tokenAt_of_none (Nat.le_of_lt here.lt_length) before here.not_token_of_structural]
  | space run covers noLeft noRight => exact (locate_of_space run covers).2.2 noLeft noRight

theorem Alone.not_token (alone : Alone text offset) : ¬ At isToken text offset := by
  cases alone with
  | structural here _ => exact here.not_token_of_structural
  | space run covers _ _ => exact (run.inside offset covers).not_token_of_space

theorem Alone.not_pointed (alone : Alone text offset) (r : Range) : ¬ Pointed text offset r := by
  intro pointed
  have same := pointed.locate_eq.symm.trans alone.locate_eq
  obtain rfl := (List.cons.inj same).1
  exact alone.not_token (pointed.run.inside offset ⟨Nat.le_refl _, Nat.lt_succ_self offset⟩)

/-- Every offset in a text points to a token, unless it is alone. -/
theorem pointed_or_alone (inside : offset < text.length) :
    (∃ r, Pointed text offset r) ∨ Alone text offset := by
  rcases at_of_lt inside with token | structural | space
  · obtain ⟨r, run, covers⟩ := token.run
    exact .inl ⟨r, .inside run covers⟩
  · by_cases before : Before isToken text offset
    · obtain ⟨r, run, covers⟩ := before.2.run
      exact .inl ⟨r, .behind structural run (run.stop_eq covers structural.not_token_of_structural)⟩
    · exact .inr (.structural structural before)
  · obtain ⟨gap, run, covers⟩ := space.run
    by_cases before : Before isToken text gap.start
    · obtain ⟨r, token, reaches⟩ := before.2.run
      exact .inl ⟨r, .left run covers token (token.stop_eq reaches run.at_start.not_token_of_space)⟩
    · by_cases behind : At isToken text gap.stop
      · obtain ⟨r, token, reaches⟩ := behind.run
        have noToken : ¬ Before isToken text gap.stop :=
          fun found => run.before_stop.2.not_token_of_space found.2
        exact .inl ⟨r, .right run covers before token (token.start_eq reaches noToken)⟩
      · exact .inr (.space run covers before behind)

end Ranges

/-- The range for an offset in a text is the token that the offset points to; exactly where there is no
such token it is the character itself. Every offset in the range has the same range, and an offset
outside the text has none. Making the range never fails. -/
theorem locate_exact (text : List Char) :
    (∀ c, (isStructural c = true ↔ c ∈ ['\x7b', '\x7d', '[', ']', ',', ':']) ∧
      (isSpace c = true ↔ c ∈ [' ', '\t', '\n', '\r']) ∧
      (isToken c = true ↔ isStructural c = false ∧ isSpace c = false)) ∧
    (∀ offset : Nat, offset < text.length → ∃ r : Range,
      locate text (some (offset : Int)) = [r] ∧ r.stop ≤ text.length ∧
      (¬ Alone text offset ∧ Pointed text offset r ∨ Alone text offset ∧ r = lone offset) ∧
      (∀ s, Pointed text offset s → s = r) ∧
      ∀ i, r.Covers i → locate text (some (i : Int)) = [r]) ∧
    (∀ offset : Option Int, (∀ i ∈ offset, i < 0 ∨ (text.length : Int) ≤ i) →
      locate text offset = []) ∧
    ∀ offset : Option Int, strictLocate text offset = .ok (locate text offset) := by
  refine ⟨fun c => ⟨isStructural_iff, isSpace_iff, isToken_iff⟩, fun offset inside => ?_, ?_,
    strictLocate_eq text⟩
  · rcases pointed_or_alone inside with ⟨r, pointed⟩ | alone
    · refine ⟨r, pointed.locate_eq, pointed.run.stop_le,
        .inl ⟨fun alone => alone.not_pointed r pointed, pointed⟩, fun s other => ?_, fun i covers => ?_⟩
      · exact (List.cons.inj (other.locate_eq.symm.trans pointed.locate_eq)).1
      · exact (Pointed.inside pointed.run covers).locate_eq
    · refine ⟨lone offset, alone.locate_eq, inside, .inr ⟨alone, rfl⟩, fun s other => ?_,
        fun i covers => ?_⟩
      · exact absurd other (alone.not_pointed s)
      · obtain rfl : i = offset := Nat.le_antisymm (Nat.le_of_lt_succ covers.2) covers.1
        exact alone.locate_eq
  · intro offset outside
    cases offset with
    | none => rfl
    | some i =>
      rcases outside i rfl with negative | beyond
      · simp [locate, negative]
      · have nothing : text[i.toNat]? = none := List.getElem?_eq_none (by omega)
        have natural : ¬ i < 0 := by omega
        simp [locate, nothing, natural]

/-- A literal cut short, with white space behind it. -/
def cutLiteral : List Char := ['[', 't', 'r', 'u', ' ', ' ', ',', ']']

theorem locate_exact_cutLiteral :
    let word : Range := ⟨1, 4, by decide⟩
    5 < cutLiteral.length ∧ locate cutLiteral (some 5) = [word] ∧ Pointed cutLiteral 5 word ∧
      word.Covers 2 ∧ locate cutLiteral (some 2) = [word] ∧
      (∀ i ∈ some (8 : Int), i < 0 ∨ (cutLiteral.length : Int) ≤ i) ∧
      locate cutLiteral (some 8) = [] := by
  intro word
  obtain ⟨_, inText, outside, _⟩ := locate_exact cutLiteral
  have inside : 5 < cutLiteral.length := by decide
  have beyond : ∀ i ∈ some (8 : Int), i < 0 ∨ (cutLiteral.length : Int) ≤ i := by simp [cutLiteral]
  obtain ⟨r, located, _, kind, _, stable⟩ := inText 5 inside
  have found : locate cutLiteral (some 5) = [word] := by decide
  obtain rfl : r = word := (List.cons.inj (located.symm.trans found)).1
  have pointed : Pointed cutLiteral 5 word :=
    (kind.resolve_right fun alone => absurd alone.2 (by decide)).2
  exact ⟨inside, found, pointed, by decide, stable 2 (by decide), beyond, outside (some 8) beyond⟩

end PayloadCheck.Highlight
