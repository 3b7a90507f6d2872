import PayloadCheck.Proofs.Json.Reading
import PayloadCheck.Proofs.Json.Reporting

namespace PayloadCheck.Json

mutual

theorem Tree.denotes (t : Tree) : ∃ v, Denotes t v := by
  match t with
  | .null => exact ⟨_, .null⟩
  | .bool b => exact ⟨_, .bool⟩
  | .number n =>
    by_cases integer : n.IsInteger
    · exact ⟨_, .integer integer⟩
    · exact ⟨_, .rounded integer⟩
  | .string ps => exact ⟨.str (String.ofList (spell ps)), .string (by simpa using spells_spell ps)⟩
  | .array items =>
    obtain ⟨vs, all⟩ := denoteAll items
    exact ⟨_, .array all⟩
  | .object members =>
    obtain ⟨entries, all⟩ := denoteEntries members
    exact ⟨_, .object all (keeps_distinct entries)⟩

theorem denoteAll (items : List Tree) : ∃ vs, DenoteAll items vs := by
  match items with
  | [] => exact ⟨_, .nil⟩
  | t :: ts =>
    obtain ⟨v, first⟩ := t.denotes
    obtain ⟨vs, others⟩ := denoteAll ts
    exact ⟨_, .cons first others⟩

theorem denoteEntries (members : List (List Piece × Tree)) :
    ∃ entries, DenoteEntries members entries := by
  match members with
  | [] => exact ⟨_, .nil⟩
  | (name, t) :: ms =>
    obtain ⟨v, first⟩ := t.denotes
    obtain ⟨entries, others⟩ := denoteEntries ms
    exact ⟨_, .cons (by simpa using spells_spell name : Spells name (String.ofList (spell name)).toList)
      first others⟩

end

theorem PaddedText.not_blank {t : Tree} {text : List Char} (written : PaddedText t text) :
    Text.allBlank text = false := by
  cases written with
  | @padded _ before inner behind _ value _ =>
    obtain ⟨c, more, rfl, starts⟩ := value.head
    have all : starters.all (!Text.isBlank ·) = true := by decide
    have visible : Text.isBlank c = false := by simpa using List.all_eq_true.mp all c starts
    simp [Text.allBlank, visible]

theorem parse_of_decode {text : List Char} (visible : Text.allBlank text = false) {v : Value}
    (read : decode ⟨nestingLimit, false⟩ text = .ok v) : parse text = (.valid, v) := by
  simp only [parse, visible, Bool.false_eq_true, if_false, read]

theorem parse_of_refusal {text : List Char} (visible : Text.allBlank text = false)
    {refusal : Refusal} (refused : decode ⟨nestingLimit, false⟩ text = .error refusal) :
    ∃ place, parse text = (.invalid (refusal.message text) place, .null) := by
  obtain ⟨place, reported⟩ :=
    Diagnosis.failure_eq text (refusal.message text) (refusal.offset? text)
  refine ⟨place, ?_⟩
  simp only [parse, visible, Bool.false_eq_true, if_false, refused, Refusal.diagnosis, reported]

theorem parse_of_malformed {text rest : List Char} {fault : Fault} (visible : Text.allBlank text = false)
    (refused : decode ⟨nestingLimit, false⟩ text = .error (.malformed fault rest)) :
    parse text = (.invalid ((Refusal.malformed fault rest).message text)
      (some ⟨offsetOf text rest, (Text.position text (offsetOf text rest)).line,
        (Text.position text (offsetOf text rest)).column⟩), .null) := by
  have within : offsetOf text rest ≤ text.length := Nat.sub_le _ _
  have inside : ¬ ((offsetOf text rest : Int) < 0 || (text.length : Int) < offsetOf text rest) = true := by
    simp only [Bool.or_eq_true, decide_eq_true_eq]
    omega
  simp only [parse, visible, Bool.false_eq_true, if_false, refused, Refusal.diagnosis, Refusal.offset?,
    Diagnosis.failure, inside]

/-- The refusal of a text, which can be computed where values cannot be compared. -/
def refusal? : Except Refusal Value → Option Refusal
  | .ok _ => none
  | .error refusal => some refusal

theorem eq_error_of_refusal? {read : Except Refusal Value} {refusal : Refusal}
    (refused : refusal? read = some refusal) : read = .error refusal := by
  cases read with
  | ok v => cases refused
  | error other => rw [Option.some.inj refused]

theorem parse_of_tree {t : Tree} {text : List Char} {v : Value} (written : PaddedText t text)
    (within : t.Within nestingLimit) (denotes : Denotes t v) : parse text = (.valid, v) :=
  parse_of_decode written.not_blank (decode_eq_ok.mpr ⟨t, written, within, denotes⟩)

/-- A text that is neither blank nor JSON within the limits is reported with a message. -/
theorem parse_cases (text : List Char) :
    Text.allBlank text = true ∨
      (∃ t v, PaddedText t text ∧ t.Within nestingLimit ∧ parse text = (.valid, v)) ∨
      ∃ message place, message ≠ "" ∧ parse text = (.invalid message place, .null) := by
  cases visible : Text.allBlank text with
  | true => exact .inl rfl
  | false =>
    cases read : decode ⟨nestingLimit, false⟩ text with
    | ok v =>
      obtain ⟨t, written, within, _⟩ := decode_eq_ok.mp read
      exact .inr (.inl ⟨t, v, written, within, parse_of_decode visible read⟩)
    | error refusal =>
      obtain ⟨place, reported⟩ := parse_of_refusal visible read
      exact .inr (.inr ⟨_, place, refusal.message_ne_empty text, reported⟩)

/-- The value of a text is that of its tree, whichever way the text is taken apart. An invalid text has
no value but a message, and nothing goes wrong in reporting it. -/
theorem parse_exact (text : List Char) :
    ((parse text).1 = .valid ↔
      Text.allBlank text = true ∨ ∃ t, PaddedText t text ∧ t.Within nestingLimit) ∧
    (Text.allBlank text = true → parse text = (.valid, .null)) ∧
    (∀ t, PaddedText t text → t.Within nestingLimit →
      ∀ v, parse text = (.valid, v) ↔ Denotes t v) ∧
    ((parse text).1 ≠ .valid →
      ∃ message place, message ≠ "" ∧ parse text = (.invalid message place, .null)) ∧
    strictParse text = .ok (parse text) := by
  refine ⟨⟨?_, ?_⟩, parse_of_blank, ?_, ?_, strictParse_eq text⟩
  · intro valid
    rcases parse_cases text with blank | ⟨t, v, written, within, _⟩ | ⟨_, _, _, reported⟩
    · exact .inl blank
    · exact .inr ⟨t, written, within⟩
    · exact absurd valid (by simp [reported])
  · rintro (blank | ⟨t, written, within⟩)
    · rw [parse_of_blank blank]
    · obtain ⟨v, denotes⟩ := t.denotes
      rw [parse_of_tree written within denotes]
  · intro t written within v
    obtain ⟨u, denotes⟩ := t.denotes
    have read := parse_of_tree written within denotes
    constructor
    · intro same
      obtain rfl : u = v := congrArg Prod.snd (read.symm.trans same)
      exact denotes
    · exact parse_of_tree written within
  · intro invalid
    rcases parse_cases text with blank | ⟨t, v, _, _, read⟩ | reported
    · exact absurd (by rw [parse_of_blank blank]) invalid
    · exact absurd (by rw [read]) invalid
    · exact reported

end PayloadCheck.Json
