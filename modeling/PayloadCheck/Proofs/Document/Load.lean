import PayloadCheck.Document.Load
import PayloadCheck.Proofs.Yaml.Leak

namespace PayloadCheck.Document

open Json

/-- A value is a document: an object with an object of paths. -/
def IsDocument (v : Value) : Prop :=
  v.isObject = true ∧ ((v.get? "paths").map (·.isObject)).getD false = true

theorem check_ok {limits : Limits} {v document : Value} (passed : check limits v = .ok document) :
    document = v ∧ IsDocument v := by
  unfold check at passed
  split at passed
  · exact nomatch passed
  · rename_i isObject
    split at passed
    · exact nomatch passed
    · exact nomatch passed
    · split at passed
      · rename_i hasPaths
        cases passed
        exact ⟨rfl, by simpa using isObject, hasPaths⟩
      · exact nomatch passed

/-- Whatever is loaded was read and passed the checks. -/
theorem load_checked {limits : Limits} {text : List Char} {document : Value}
    (loaded : load limits text = .ok document) :
    check limits document = .ok document ∧
      (if isJson text then readJson text else readYaml limits.depth text) = .ok document := by
  unfold load at loaded
  split at loaded
  · exact nomatch loaded
  · split at loaded
    · exact nomatch loaded
    · rename_i read
      obtain ⟨rfl, _⟩ := check_ok loaded
      exact ⟨loaded, read⟩

theorem load_ok {limits : Limits} {text : List Char} {document : Value}
    (loaded : load limits text = .ok document) :
    IsDocument document ∧
      (if isJson text then readJson text else readYaml limits.depth text) = .ok document :=
  (load_checked loaded).imp_left fun passed => (check_ok passed).2

/-- No integer in a document that is read as JSON has too many digits. -/
theorem load_json_short {limits : Limits} {text : List Char} {document : Value}
    (json : isJson text = true) (loaded : load limits text = .ok document) :
    ¬ document.HoldsLong := by
  have read := (load_ok loaded).2
  rw [if_pos json, readJson] at read
  split at read
  · rename_i parsed
    cases read
    exact parse_short parsed
  · exact nomatch read

/-- A fault of the text as such: it is malformed, or holds something other than a document. -/
def Fault.IsUnparsable : Fault → Prop
  | .malformedJson _ _ => True
  | .malformedYaml _ _ => True
  | .notMapping => True
  | .noPaths => True
  | _ => False

theorem Fault.cases (fault : Fault) :
    fault.isUnsafe = true ∨ fault.IsUnparsable ∨ ∃ value, fault = .badValue value := by
  cases fault with
  | badValue value => exact Or.inr (Or.inr ⟨value, rfl⟩)
  | tooLarge _ _ | anchors | tooManyNodes _ | tooDeep _ | unreadablyDeep => exact Or.inl rfl
  | malformedJson _ _ | malformedYaml _ _ | notMapping | noPaths => exact Or.inr (Or.inl trivial)

/-- A text leaks a fault of a value: it is read as YAML, no earlier check refuses it, and the reading
ends with that fault. -/
structure Leaks (limits : Limits) (text : List Char) (fault : Yaml.ValueFault) : Prop where
  fits : text.length ≤ limits.size
  yaml : isJson text = false
  plain : holdsAnchor text = false
  reading : Yaml.Leaks limits.depth text fault

/-- The checks find fault with the shape of a value only. -/
theorem check_fault {limits : Limits} {v : Value} {fault : Fault} (failed : check limits v = .error fault) :
    fault = .notMapping ∨ fault = .noPaths ∨ fault = .tooManyNodes limits.nodes ∨
      fault = .tooDeep limits.depth := by
  unfold check at failed
  split at failed
  · cases failed
    exact Or.inl rfl
  · split at failed
    · cases failed
      exact Or.inr (Or.inr (Or.inl rfl))
    · cases failed
      exact Or.inr (Or.inr (Or.inr rfl))
    · split at failed
      · exact nomatch failed
      · cases failed
        exact Or.inr (Or.inl rfl)

theorem readJson_ne_badValue (text : List Char) (fault : Yaml.ValueFault) :
    readJson text ≠ .error (.badValue fault) := by
  intro failed
  unfold readJson at failed
  split at failed <;> exact nomatch failed

theorem readYaml_badValue_iff {depth : Int} {text : List Char} {fault : Yaml.ValueFault} :
    readYaml depth text = .error (.badValue fault) ↔
      holdsAnchor text = false ∧ Yaml.Leaks depth text fault := by
  rw [← Yaml.read_badValue_iff]
  unfold readYaml
  cases holdsAnchor text with
  | true => simp
  | false =>
    cases read : Yaml.read depth text with
    | ok v => cases v <;> simp
    | error failure => cases failure <;> simp [Fault.ofFailure]

theorem load_badValue_iff {limits : Limits} {text : List Char} {fault : Yaml.ValueFault} :
    load limits text = .error (.badValue fault) ↔ Leaks limits text fault := by
  constructor
  · intro failed
    unfold load at failed
    split at failed
    · exact nomatch failed
    · rename_i fits
      split at failed
      · rename_i other unread
        cases failed
        cases json : isJson text with
        | true =>
          rw [json, if_pos rfl] at unread
          exact absurd unread (readJson_ne_badValue text fault)
        | false =>
          rw [json, if_neg Bool.false_ne_true] at unread
          obtain ⟨plain, reading⟩ := readYaml_badValue_iff.mp unread
          exact ⟨Int.not_lt.mp fits, json, plain, reading⟩
      · rcases check_fault failed with same | same | same | same <;> exact nomatch same
  · rintro ⟨fits, json, plain, reading⟩
    have unread := readYaml_badValue_iff.mpr ⟨plain, reading⟩
    unfold load
    rw [if_neg (Int.not_lt.mpr fits), json, if_neg Bool.false_ne_true, unread]

end PayloadCheck.Document
