import PayloadCheck.Proofs.Json.Reporting

namespace PayloadCheck

open Json

/-- A text of printable ASCII characters. -/
def Visible (text : String) : Prop := ∀ c ∈ text.toList, 0x20 ≤ c.toNat ∧ c.toNat < 0x7F

instance (text : String) : Decidable (Visible text) := List.decidableBAll _ text.toList

theorem Visible.append {text more : String} (first : Visible text) (second : Visible more) :
    Visible (text ++ more) := by
  rw [Visible, String.toList_append]
  exact List.forall_mem_append.mpr ⟨first, second⟩

theorem Visible.isWhole {text : String} (visible : Visible text) : Text.isWhole text = true := by
  have no : ∀ c ∈ text.toList, Text.isUnpaired c = false := by
    intro c among
    have bound := (visible c among).2
    exact decide_eq_false (by omega)
  simpa [Text.isWhole] using no

theorem visible_natural (n : Nat) : Visible (toString n) := by
  rw [Visible, Nat.toString_eq_ofList_toDigits, String.toList_ofList]
  intro c among
  have digit := Nat.isDigit_of_mem_toDigits (by decide) (by decide) among
  simp only [Char.isDigit, Bool.and_eq_true, decide_eq_true_eq] at digit
  exact ⟨Nat.le_trans (by decide) (show 48 ≤ c.toNat from digit.1),
    Nat.lt_of_le_of_lt (show c.toNat ≤ 57 from digit.2) (by decide)⟩

theorem visible_integer (n : Int) : Visible (toString n) := by
  cases n with
  | ofNat n => exact visible_natural n
  | negSucc n =>
    have sign : Visible "-" := by decide
    exact sign.append (visible_natural (n + 1))

namespace Json

theorem visible_whereText (text : List Char) (offset : Nat) : Visible (whereText text offset) := by
  have line := visible_integer (Text.position text offset).line
  have column := visible_integer (Text.position text offset).column
  have upToLine : Visible ("line " ++ toString (Text.position text offset).line) :=
    Visible.append (by decide) line
  have upToColumn := (upToLine.append (by decide : Visible " column ")).append column
  have upToOffset := (upToColumn.append (by decide : Visible " (char ")).append (visible_natural offset)
  exact upToOffset.append (by decide)

theorem Refusal.visible_message (text : List Char) (refusal : Refusal) :
    Visible (refusal.message text) := by
  cases refusal with
  | malformed fault rest =>
    have words : Visible fault.message := by cases fault <;> decide
    have colon : Visible (fault.message ++ ": ") := words.append (by decide)
    exact colon.append (visible_whereText text (offsetOf text rest))
  | constant name rest =>
    have quoted : Visible ("Unexpected token '" ++ name.name) :=
      Visible.append (by decide) (by cases name <;> decide)
    exact quoted.append (by decide)
  | tooManyDigits digits =>
    have limit : Visible ("Exceeds the limit (" ++ toString Number.digitLimit) :=
      Visible.append (by decide) (visible_natural _)
    have upToNumber := limit.append
      (by decide : Visible " digits) for integer string conversion: value has ")
    exact (upToNumber.append (visible_natural digits)).append (by decide)
  | tooDeep container =>
    have named : Visible ("maximum recursion depth exceeded while decoding a JSON " ++ container.name) :=
      Visible.append (by decide) (by cases container <;> decide)
    exact named.append (by decide)

/-- The message of a diagnosis repeats nothing of the text. -/
theorem visible_diagnose {text : List Char} {message : String} {place : Option Place}
    (rejected : diagnose text = .invalid message place) : Visible message := by
  unfold diagnose parse at rejected
  split at rejected
  · exact nomatch rejected
  · split at rejected
    · exact nomatch rejected
    · rename_i refusal _
      obtain ⟨there, failed⟩ :=
        Diagnosis.failure_eq text (refusal.message text) (refusal.offset? text)
      obtain ⟨rfl, _⟩ := Diagnosis.invalid.inj (failed.symm.trans rejected)
      exact refusal.visible_message text

end Json

end PayloadCheck
