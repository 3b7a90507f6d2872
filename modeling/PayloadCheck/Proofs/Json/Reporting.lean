import PayloadCheck.Json.Parse

namespace PayloadCheck

open Number

namespace Diagnosis

/-- The fields that a valid text is reported with. -/
def validFields : DiagnosisFields := ⟨some (some true), none, none, none, none⟩

/-- The fields that a failure is reported with: an offset that lies outside the text is left out, and
any other comes with its line and column. -/
def failureFields (text : List Char) (message : String) : Option Int → DiagnosisFields
  | none => ⟨some (some false), some message, none, none, none⟩
  | some offset =>
    if offset < 0 || (text.length : Int) < offset then
      ⟨some (some false), some message, none, none, none⟩
    else
      let position := Text.position text offset
      ⟨some (some false), some message, some offset, some position.line, some position.column⟩

theorem ofFields_failureFields (text : List Char) (message : String) (offset : Option Int) :
    ofFields (failureFields text message offset) = .ok (failure text message offset) := by
  cases offset with
  | none => rfl
  | some offset =>
    by_cases outside : (offset < 0 || (text.length : Int) < offset) = true
    · simp only [failureFields, failure, outside, if_true, ofFields]
    · simp only [failureFields, failure, outside, if_false, ofFields, Bool.false_eq_true]

theorem failure_eq (text : List Char) (message : String) (offset : Option Int) :
    ∃ place, failure text message offset = .invalid message place := by
  cases offset with
  | none => exact ⟨none, rfl⟩
  | some offset =>
    by_cases outside : (offset < 0 || (text.length : Int) < offset) = true
    · exact ⟨none, if_pos outside⟩
    · exact ⟨_, if_neg outside⟩

/-- An offset that is reported is the one that was given. -/
theorem eq_of_offset?_failure {text : List Char} {message : String} {given : Option Int} {offset : Int}
    (placed : (failure text message given).offset? = some offset) : given = some offset := by
  cases given with
  | none => cases placed
  | some given =>
    by_cases outside : (given < 0 || (text.length : Int) < given) = true
    · simp only [failure, outside, if_true] at placed
      cases placed
    · simp only [failure, outside] at placed
      exact placed

end Diagnosis

namespace Json

theorem findAfter?_position {text : List Char} (without : ∀ c ∈ text, c ≠ 'p' ∧ c ≠ 'P') :
    findAfter? positionLetters text = none := by
  induction text with
  | nil => rfl
  | cons c rest ih =>
    obtain ⟨⟨small, capital⟩, others⟩ := List.forall_mem_cons.mp without
    have here : afterWord? positionLetters (c :: rest) = none := by
      have other : ¬ ['p', 'P'].contains c = true := by simp [small, capital]
      rw [positionLetters, afterWord?, if_neg other]
    rw [findAfter?, here]
    exact ih others

theorem charDigits?_cons {c : Char} {rest : List Char}
    (other : ¬ (c = '(' ∧ rest.head? = some 'c')) : charDigits? (c :: rest) = charDigits? rest := by
  rw [charDigits?]
  split
  · rename_i digits found
    split at found
    · rename_i same
      cases same
      exact absurd ⟨rfl, rfl⟩ other
    · exact nomatch found
  · rfl

theorem charDigits?_append {before : List Char} (without : '(' ∉ before) (after : List Char) :
    charDigits? (before ++ after) = charDigits? after := by
  induction before with
  | nil => rfl
  | cons c rest ih =>
    rw [List.mem_cons, not_or] at without
    rw [List.cons_append, charDigits?_cons fun both => without.1 both.1.symm]
    exact ih without.2

theorem offsetInMessage_of_silent {message : List Char}
    (noPosition : positionDigits? message = none) (noChar : charDigits? message = none) :
    offsetInMessage message = .ok none := by
  rw [offsetInMessage, noPosition, noChar]
  rfl

theorem toList_tooManyDigitsMessage (n : Nat) :
    (tooManyDigitsMessage n).toList = "Exceeds the limit ".toList ++
      '(' :: ("4300 digits) for integer string conversion: value has ".toList ++
        (Nat.toDigits 10 n ++
          " digits; use sys.set_int_max_str_digits() to increase the limit".toList)) := by
  have limit : toString digitLimit = "4300" := by decide +kernel
  unfold tooManyDigitsMessage
  rw [limit]
  simp only [String.toList_append, Nat.toString_eq_repr, Nat.repr_eq_ofList_toDigits,
    String.toList_ofList]
  rfl

theorem not_mem_toDigits {c : Char} (other : c.isDigit = false) (n : Nat) :
    c ∉ Nat.toDigits 10 n := by
  intro among
  have digit := Nat.isDigit_of_mem_toDigits (by decide) (by decide) among
  exact absurd digit (by simp [other])

theorem offsetInMessage_tooManyDigits (n : Nat) :
    offsetInMessage (tooManyDigitsMessage n).toList = .ok none := by
  rw [toList_tooManyDigitsMessage]
  apply offsetInMessage_of_silent
  · rw [positionDigits?, findAfter?_position]
    intro c among
    constructor
    · rintro rfl
      have digits := not_mem_toDigits (c := 'p') rfl n
      simp [digits] at among
    · rintro rfl
      have digits := not_mem_toDigits (c := 'P') rfl n
      simp [digits] at among
  -- Past each part without a parenthesis; only then is the rest a closed text.
  · rw [charDigits?_append (by decide), charDigits?_cons (by simp), charDigits?_append (by decide),
      charDigits?_append (not_mem_toDigits rfl n)]
    decide +kernel

theorem offsetInMessage_tooDeep (container : Container) (text : List Char) :
    offsetInMessage ((Refusal.tooDeep container).message text).toList = .ok none := by
  change offsetInMessage ("maximum recursion depth exceeded while decoding a JSON " ++
    container.name ++ " from a unicode string").toList = .ok none
  cases container with
  | array => exact offsetInMessage_of_silent (by decide +kernel) (by decide +kernel)
  | object => exact offsetInMessage_of_silent (by decide +kernel) (by decide +kernel)

/-- What can go wrong while a failure is reported. -/
inductive ReportFault
  | offset (fault : NumeralFault)
  | fields (errors : List InputError)

namespace Refusal

/-- The offset of the error, or why the number that the message names cannot be read. -/
def readOffset (text : List Char) : Refusal → Except NumeralFault (Option Int)
  | .malformed _ rest => .ok (some (offsetOf text rest))
  | .constant name _ => .ok ((bareToken? text name.name.toList).map (↑·))
  | refusal => offsetInMessage (refusal.message text).toList

def report (text : List Char) (refusal : Refusal) : Except ReportFault Diagnosis := do
  let offset ← (refusal.readOffset text).mapError .offset
  let fields := Diagnosis.failureFields text (refusal.message text) offset
  (Diagnosis.ofFields fields).mapError .fields

theorem readOffset_eq (text : List Char) (refusal : Refusal) :
    refusal.readOffset text = .ok (refusal.offset? text) := by
  cases refusal with
  | malformed fault rest => rfl
  | constant name rest => rfl
  | tooManyDigits digits =>
    have silent : offsetInMessage ((tooManyDigits digits).message text).toList = .ok none :=
      offsetInMessage_tooManyDigits digits
    simp only [readOffset, offset?, silent]
  | tooDeep container =>
    have silent := offsetInMessage_tooDeep container text
    simp only [readOffset, offset?, silent]

theorem report_eq (text : List Char) (refusal : Refusal) :
    refusal.report text = .ok (refusal.diagnosis text) := by
  rw [report, readOffset_eq]
  change (Diagnosis.ofFields (Diagnosis.failureFields text (refusal.message text)
    (refusal.offset? text))).mapError ReportFault.fields = _
  rw [Diagnosis.ofFields_failureFields]
  rfl

theorem message_ne_empty (text : List Char) (refusal : Refusal) : refusal.message text ≠ "" := by
  cases refusal with
  | malformed fault rest =>
    change fault.message ++ ": " ++ whereText text (offsetOf text rest) ≠ ""
    simp
  | constant name rest =>
    change "Unexpected token '" ++ name.name ++ "': not a valid JSON value" ≠ ""
    simp
  | tooManyDigits digits =>
    change tooManyDigitsMessage digits ≠ ""
    unfold tooManyDigitsMessage
    simp
  | tooDeep container =>
    change "maximum recursion depth exceeded while decoding a JSON " ++ container.name ++
      " from a unicode string" ≠ ""
    simp

end Refusal

theorem parse_of_blank {text : List Char} (blank : Text.allBlank text = true) :
    parse text = (.valid, .null) := by
  rw [parse, if_pos blank]

/-- Parses a text, with all that may go wrong on the way to a diagnosis. -/
def strictParse (text : List Char) : Except ReportFault (Diagnosis × Value) :=
  if Text.allBlank text then
    return (← (Diagnosis.ofFields Diagnosis.validFields).mapError .fields, .null)
  else
    match decode ⟨nestingLimit, false⟩ text with
    | .ok v => return (← (Diagnosis.ofFields Diagnosis.validFields).mapError .fields, v)
    | .error refusal => return (← refusal.report text, .null)

theorem strictParse_eq (text : List Char) : strictParse text = .ok (parse text) := by
  unfold strictParse parse
  split
  · rfl
  · cases decode ⟨nestingLimit, false⟩ text with
    | ok v => rfl
    | error refusal =>
      simp only [Refusal.report_eq]
      rfl

end Json

end PayloadCheck
