import PayloadCheck.Tool.Call

namespace PayloadCheck.Tool

/-- A text begins with words. -/
def Opens (words told : String) : Prop := ∃ rest, told = words ++ rest

theorem Opens.head {words told : String} (opens : Opens words told) {c : Char}
    (first : words.toList.head? = some c) : told.toList.head? = some c := by
  obtain ⟨rest, rfl⟩ := opens
  rw [String.toList_append, List.head?_append, first]
  rfl

theorem opens_lines (words more : String) (rest : List String) :
    Opens words (lines ((words ++ more) :: rest)) :=
  ⟨lines (more :: rest), String.intercalate_cons_append⟩

/-- The words that a report of so many errors begins with. -/
def errorsHeading (n : Nat) : String := "Schema errors (" ++ toString n ++ "):"

theorem opens_errorsHeading {n m : Nat} {told : String} (one : Opens (errorsHeading n) told)
    (other : Opens (errorsHeading m) told) : n = m := by
  obtain ⟨rest, rfl⟩ := one
  obtain ⟨rest', same⟩ := other
  have lists := congrArg String.toList same
  simp only [errorsHeading, String.toList_append, List.append_assoc, List.append_cancel_left_eq] at lists
  simp only [Nat.toString_eq_ofList_toDigits, String.toList_ofList] at lists
  -- The digits end where the bracket stands.
  have digits (k : Nat) (tail : List Char) :
      (Nat.toDigits 10 k ++ ("):".toList ++ tail)).takeWhile (· ≠ ')') = Nat.toDigits 10 k := by
    have plain : ∀ c ∈ Nat.toDigits 10 k, decide (c ≠ ')') = true := by
      intro c among
      have digit := Nat.isDigit_of_mem_toDigits (by decide) (by decide) among
      refine decide_eq_true ?_
      rintro rfl
      exact nomatch digit
    rw [List.takeWhile_append_of_pos plain]
    simp
  have same_digits := congrArg (List.takeWhile (· ≠ ')')) lists
  rw [digits, digits] at same_digits
  rw [← Nat.ofDigitChars_ten_toDigits (n := n), same_digits, Nat.ofDigitChars_ten_toDigits]

/-- What a report says of an outcome. -/
structure Tells (o : Outcome) (told : String) : Prop where
  malformed : Opens "Invalid JSON" told ↔ o.syntaxDiagnosis.isValid = false
  errors : ∀ n, Opens (errorsHeading n) told ↔
    o.syntaxDiagnosis.isValid = true ∧ o.schemaErrors ≠ [] ∧ o.schemaErrors.length = n
  valid : Opens "Payload is valid JSON" told ↔ o.valid = true
  checked : told = "Payload is valid JSON and matches the request schema." ↔
    o.valid = true ∧ o.schemaChecked = true
  unchecked : told = "Payload is valid JSON (no request-body schema was checked)." ↔
    o.valid = true ∧ o.schemaChecked = false

theorem report_cases (text : List Char) (o : Outcome) :
    o.syntaxDiagnosis.isValid = false ∧ Opens "Invalid JSON" (report text o) ∨
      o.syntaxDiagnosis.isValid = true ∧ o.schemaErrors ≠ [] ∧
        Opens (errorsHeading o.schemaErrors.length) (report text o) ∨
      o.syntaxDiagnosis.isValid = true ∧ o.schemaErrors = [] ∧
        report text o = if o.schemaChecked then "Payload is valid JSON and matches the request schema."
          else "Payload is valid JSON (no request-body schema was checked)." := by
  obtain ⟨diagnosis, ranges, errors, checked⟩ := o
  cases diagnosis with
  | invalid message place =>
    refine Or.inl ⟨rfl, ?_⟩
    simp only [report, syntaxReport, String.append_assoc]
    exact opens_lines _ _ _
  | valid =>
    cases errors with
    | nil => exact Or.inr (Or.inr ⟨rfl, rfl, rfl⟩)
    | cons e rest =>
      refine Or.inr (Or.inl ⟨rfl, List.cons_ne_nil _ _, ?_⟩)
      have heading := opens_lines (errorsHeading (e :: rest).length) ""
        ((e :: rest).map fun e => "  - " ++ e.path ++ ": " ++ e.message)
      rwa [String.append_empty] at heading

theorem not_opens {words told : String} {c d : Char} (first : told.toList.head? = some c)
    (other : words.toList.head? = some d) (apart : c ≠ d) : ¬ Opens words told := fun opens =>
  apart (Option.some.inj (first.symm.trans (opens.head other)))

theorem errorsHeading_head (n : Nat) : (errorsHeading n).toList.head? = some 'S' := by
  simp [errorsHeading]

theorem report_tells (text : List Char) (o : Outcome) : Tells o (report text o) := by
  have sound : o.valid = true ↔ o.syntaxDiagnosis.isValid = true ∧ o.schemaErrors = [] := by
    simp [Outcome.valid]
  rcases report_cases text o with ⟨invalid, opens⟩ | ⟨valid, errors, opens⟩ | ⟨valid, errors, sentence⟩
  · have first : (report text o).toList.head? = some 'I' := opens.head rfl
    have unsound : o.valid ≠ true := fun fine => nomatch invalid.symm.trans (sound.mp fine).1
    constructor
    · exact iff_of_true opens invalid
    · exact fun n => iff_of_false (not_opens first (errorsHeading_head n) (by decide))
        fun held => nomatch invalid.symm.trans held.1
    · exact iff_of_false (not_opens first rfl (by decide)) unsound
    · exact iff_of_false (fun same => by simp [same] at first) fun held => unsound held.1
    · exact iff_of_false (fun same => by simp [same] at first) fun held => unsound held.1
  · have first : (report text o).toList.head? = some 'S' := opens.head (errorsHeading_head _)
    have unsound : o.valid ≠ true := fun fine => errors (sound.mp fine).2
    constructor
    · exact iff_of_false (not_opens first rfl (by decide)) fun held => nomatch valid.symm.trans held
    · intro n
      constructor
      · exact fun counted => ⟨valid, errors, opens_errorsHeading opens counted⟩
      · rintro ⟨_, _, rfl⟩
        exact opens
    · exact iff_of_false (not_opens first rfl (by decide)) unsound
    · exact iff_of_false (fun same => by simp [same] at first) fun held => unsound held.1
    · exact iff_of_false (fun same => by simp [same] at first) fun held => unsound held.1
  · have fine : o.valid = true := sound.mpr ⟨valid, errors⟩
    have opens : Opens "Payload is valid JSON" (report text o) := by
      rw [sentence]
      split
      · exact ⟨" and matches the request schema.", rfl⟩
      · exact ⟨" (no request-body schema was checked).", rfl⟩
    have first : (report text o).toList.head? = some 'P' := opens.head rfl
    constructor
    · exact iff_of_false (not_opens first rfl (by decide)) fun held => nomatch valid.symm.trans held
    · exact fun n => iff_of_false (not_opens first (errorsHeading_head n) (by decide))
        fun held => held.2.1 errors
    · exact iff_of_true opens fine
    · rw [sentence]
      cases o.schemaChecked <;> simp [fine]
    · rw [sentence]
      cases o.schemaChecked <;> simp [fine]

end PayloadCheck.Tool
