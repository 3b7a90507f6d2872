import PayloadCheck.Text.Case

namespace PayloadCheck.Text

/-- The small letters that come from one capital alone. -/
def plainLetters : List Char := "abcdefghijlmnopqrstuvwxyz".toList

theorem plainLetters_bounds {d : Char} (plain : d ∈ plainLetters) :
    97 ≤ d.toNat ∧ d.toNat ≤ 122 ∧ d.toNat ≠ 107 := by
  have all : plainLetters.all fun d => 97 ≤ d.toNat ∧ d.toNat ≤ 122 ∧ d.toNat ≠ 107 := by decide
  exact of_decide_eq_true (List.all_eq_true.mp all d plain)

/-- A run of capitals is that of the Latin alphabet, or leads elsewhere, or is the kelvin sign. -/
theorem lowerRuns_apart : ∀ run ∈ lowerRuns, run = (0x41, 0x5A, 1, 32) ∨
    122 < (run.1 : Int) + run.2.2.2 ∨ (run.2.1 : Int) + run.2.2.2 < 97 ∨
      run = (0x212A, 0x212A, 1, -8383) := by
  decide +kernel

theorem upperChar_capital {d : Char} (plain : d ∈ plainLetters) :
    upperChar (Char.ofNat (d.toNat - 32)) = upperChar d := by
  have all : plainLetters.all fun d => upperChar (Char.ofNat (d.toNat - 32)) = upperChar d := by decide
  exact of_decide_eq_true (List.all_eq_true.mp all d plain)

theorem toNat_ofNat_cases (n : Nat) : (Char.ofNat n).toNat = n ∨ (Char.ofNat n).toNat = 0 := by
  by_cases valid : n.isValidChar
  · rw [Char.ofNat, dif_pos valid]
    exact .inl rfl
  · rw [Char.ofNat, dif_neg valid]
    exact .inr rfl

/-- A plain letter comes from itself or from its capital. -/
theorem moved_plain {c d : Char} (plain : d ∈ plainLetters) (made : moved lowerRuns c = d) :
    c = d ∨ c = Char.ofNat (d.toNat - 32) := by
  obtain ⟨least, most, noK⟩ := plainLetters_bounds plain
  unfold moved at made
  split at made
  · rename_i first last step distance found
    have belongs := List.find?_some found
    simp only [Bool.and_eq_true, decide_eq_true_eq] at belongs
    have target : ((c.toNat : Int) + distance).toNat = d.toNat := by
      rcases toNat_ofNat_cases ((c.toNat : Int) + distance).toNat with same | zero
      · rw [← same, made]
      · rw [made] at zero
        omega
    rcases lowerRuns_apart _ (List.mem_of_find?_eq_some found) with latin | above | below | kelvin
    · obtain ⟨rfl, rfl, rfl, rfl⟩ : first = 0x41 ∧ last = 0x5A ∧ step = 1 ∧ distance = 32 := by
        simpa using latin
      refine .inr (Char.toNat_inj.mp ?_)
      have code : c.toNat = d.toNat - 32 := by omega
      rw [← code, Char.ofNat_toNat]
    · dsimp only at above
      omega
    · dsimp only at below
      omega
    · obtain ⟨rfl, rfl, rfl, rfl⟩ :
          first = 0x212A ∧ last = 0x212A ∧ step = 1 ∧ distance = -8383 := by simpa using kelvin
      omega
  · exact .inl made

theorem upper_lowerChar {before : List Char} {c : Char} {after : List Char}
    (plain : ∀ d ∈ lowerChar before c after, d ∈ plainLetters) :
    upper (lowerChar before c after) = upperChar c := by
  unfold lowerChar at plain ⊢
  split at plain
  · split at plain <;> exact absurd (plain _ List.mem_cons_self) (by decide)
  · split at plain
    · exact absurd (plain (Char.ofNat 0x307) (by simp)) (by decide)
    · rename_i noSigma noDot
      rw [if_neg noSigma, if_neg noDot, upper, List.flatMap_singleton]
      have letter := plain _ List.mem_cons_self
      rcases moved_plain letter rfl with same | capital
      · rw [← same]
      · exact (upperChar_capital letter).symm.trans (congrArg upperChar capital.symm)

theorem upper_append (one other : List Char) : upper (one ++ other) = upper one ++ upper other :=
  List.flatMap_append

theorem upper_lowerAfter {before text : List Char}
    (plain : ∀ d ∈ lowerAfter before text, d ∈ plainLetters) :
    upper (lowerAfter before text) = upper text := by
  induction text generalizing before with
  | nil => rfl
  | cons c rest ih =>
    rw [lowerAfter] at plain ⊢
    rw [List.forall_mem_append] at plain
    rw [upper_append, upper_lowerChar plain.1, ih plain.2]
    rfl

/-- A text whose small letters are plain has the capitals of its small letters. -/
theorem upper_lower {text : List Char} (plain : ∀ d ∈ lower text, d ∈ plainLetters) :
    upper (lower text) = upper text :=
  upper_lowerAfter plain

end PayloadCheck.Text
