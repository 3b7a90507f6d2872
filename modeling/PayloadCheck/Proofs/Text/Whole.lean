import PayloadCheck.Proofs.Text.Case
import PayloadCheck.Text.Surrogate

namespace PayloadCheck.Text

theorem isWhole_iff {s : String} : isWhole s = true ↔ ∀ c ∈ s.toList, isUnpaired c = false := by
  simp [isWhole]

@[simp]
theorem isWhole_append (s t : String) : isWhole (s ++ t) = (isWhole s && isWhole t) := by
  simp [isWhole, Bool.not_or]

theorem isWhole_join {texts : List String} (each : ∀ text ∈ texts, isWhole text = true) :
    isWhole (String.join texts) = true := by
  induction texts with
  | nil => decide
  | cons text rest ih =>
    obtain ⟨first, others⟩ := List.forall_mem_cons.mp each
    rw [String.join_cons, isWhole_append, first, ih others, Bool.and_self]

theorem ofNat_whole {n : Nat} (small : n < 0x10F800) : isUnpaired (Char.ofNat n) = false := by
  refine decide_eq_false ?_
  rcases toNat_ofNat_cases n with same | zero <;> omega

/-- The capitals of a character are characters. -/
theorem upperChar_whole {c d : Char} (whole : isUnpaired c = false) (among : d ∈ upperChar c) :
    isUnpaired d = false := by
  unfold upperChar at among
  split at among
  · rename_i code letters found
    have small : ∀ entry ∈ upperSpellings, ∀ n ∈ entry.2, n < 0x10F800 := by decide +kernel
    obtain ⟨n, listed, rfl⟩ := List.mem_map.mp among
    exact ofNat_whole (small _ (List.mem_of_find?_eq_some found) n listed)
  · obtain rfl := List.mem_singleton.mp among
    unfold moved
    split
    · rename_i first last step distance found
      have low : ∀ run ∈ upperRuns, (run.2.1 : Int) + run.2.2.2 < 0x10F800 := by decide +kernel
      have bound := low _ (List.mem_of_find?_eq_some found)
      have belongs := List.find?_some found
      simp only [Bool.and_eq_true, decide_eq_true_eq] at belongs
      exact ofNat_whole (by dsimp only at bound; omega)
    · exact whole

theorem isWhole_upper {s : String} (whole : isWhole s = true) :
    isWhole (String.ofList (upper s.toList)) = true := by
  rw [isWhole_iff, String.toList_ofList]
  intro d among
  obtain ⟨c, inside, from_⟩ := List.mem_flatMap.mp among
  exact upperChar_whole (isWhole_iff.mp whole c inside) from_

end PayloadCheck.Text
