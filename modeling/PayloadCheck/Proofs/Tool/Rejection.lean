import PayloadCheck.Proofs.Store.Operations
import PayloadCheck.Proofs.Tool.Excerpt
import PayloadCheck.Tool.Call

namespace PayloadCheck

open Json

/-- A text without line feeds. -/
def OneLine (text : String) : Prop := '\n' ∉ text.toList

instance (text : String) : Decidable (OneLine text) := inferInstanceAs (Decidable (_ ∉ _))

theorem OneLine.append {text more : String} (first : OneLine text) (second : OneLine more) :
    OneLine (text ++ more) := by
  rw [OneLine, String.toList_append, List.mem_append, not_or]
  exact ⟨first, second⟩

theorem Visible.oneLine {text : String} (visible : Visible text) : OneLine text := fun among =>
  absurd (visible _ among).1 (by decide)

namespace Tool

/-- Where the error of a text is, if that is known. -/
def spot : Option Place → String
  | none => ""
  | some place => " (line " ++ toString place.line ++ ", column " ++ toString place.column ++ ")"

/-- The line that tells what is wrong with a text, and where. -/
def headline (message : String) (place : Option Place) : String :=
  "Invalid JSON" ++ spot place ++ ": " ++ message

/-- The line that shows an excerpt. -/
def nearLine (excerpt : List Char) : String := "  near: " ++ String.ofList excerpt

theorem syntaxReport_eq (text : List Char) (message : String) (place : Option Place)
    (ranges : List Highlight.Range) :
    syntaxReport text message place ranges =
      lines (headline message place :: ((snippet? text ranges).map nearLine).toList) := by
  unfold syntaxReport
  cases place <;> cases snippet? text ranges <;> rfl

theorem visible_spot (place : Option Place) : Visible (spot place) := by
  cases place with
  | none => decide
  | some place =>
    have upToLine : Visible (" (line " ++ toString place.line) :=
      Visible.append (by decide) (visible_integer place.line)
    have upToColumn := (upToLine.append (by decide : Visible ", column ")).append
      (visible_integer place.column)
    exact upToColumn.append (by decide)

theorem visible_headline {message : String} (plain : Visible message) (place : Option Place) :
    Visible (headline message place) := by
  have opening : Visible ("Invalid JSON" ++ spot place) := Visible.append (by decide) (visible_spot place)
  exact (opening.append (by decide : Visible ": ")).append plain

theorem toList_nearLine (excerpt : List Char) :
    (nearLine excerpt).toList = "  near: ".toList ++ excerpt := by
  simp [nearLine]

theorem splitOn_lines {all : List String} (nonempty : all ≠ [])
    (each : ∀ line ∈ all, OneLine line) :
    (lines all).toList.splitOn '\n' = all.map String.toList := by
  rw [lines, String.toList_intercalate]
  refine List.splitOn_intercalate '\n' ?_ (by simpa using nonempty)
  intro line among
  obtain ⟨written, known, rfl⟩ := List.mem_map.mp among
  exact each written known

/-- What is said of a rejected text: a line that tells what is wrong and, if the error has a range, a second
one that quotes it. -/
inductive Rejection (text : List Char) (message : String) (place : Option Place) (told : List Char) :
    List Highlight.Range → Prop
  | plain : told.splitOn '\n' = [(headline message place).toList] → told.count '\n' = 0 →
      Rejection text message place told []
  | quoting {r : Highlight.Range} : r.stop ≤ text.length →
      told.splitOn '\n' = [(headline message place).toList, "  near: ".toList ++ quotation text r] →
      told.count '\n' = 1 → Rejection text message place told [r]

theorem syntaxReport_plain {text : List Char} {message : String} (plain : Visible message)
    (place : Option Place) :
    Rejection text message place (syntaxReport text message place []).toList [] := by
  have first := (visible_headline plain place).oneLine
  have single : syntaxReport text message place [] = headline message place := by
    rw [syntaxReport_eq]
    rfl
  rw [single]
  exact .plain (List.splitOn_eq_singleton first) (List.count_eq_zero.mpr first)

theorem syntaxReport_quoting {text : List Char} {message : String} (plain : Visible message)
    (place : Option Place) {r : Highlight.Range} (inside : r.stop ≤ text.length) :
    Rejection text message place (syntaxReport text message place [r]).toList [r] := by
  have first := (visible_headline plain place).oneLine
  have second : OneLine (nearLine (quotation text r)) := by
    rw [OneLine, toList_nearLine, List.mem_append, not_or]
    exact ⟨by decide, newline_notMem_quotation text r⟩
  have both : syntaxReport text message place [r] =
      lines [headline message place, nearLine (quotation text r)] := by
    rw [syntaxReport_eq, snippet?_singleton inside]
    rfl
  rw [both]
  refine .quoting inside ?_ ?_
  · rw [splitOn_lines (by simp) (by simp [first, second]), ← toList_nearLine]
    rfl
  · have joined : (lines [headline message place, nearLine (quotation text r)]).toList =
        (headline message place).toList ++ '\n' :: (nearLine (quotation text r)).toList := by
      simp [lines]
    rw [joined, List.count_append, List.count_cons_self, List.count_eq_zero.mpr first,
      List.count_eq_zero.mpr second]

/-- A report, with all that may go wrong on the way: ranges are made for the excerpt. -/
def strictReport (text : List Char) (o : Outcome) : Except (List InputError) String :=
  match o.syntaxDiagnosis with
  | .valid => .ok (report text o)
  | .invalid message place => do
    let excerpt ← strictSnippet? text o.ranges
    return lines (headline message place :: (excerpt.map nearLine).toList)

theorem strictReport_eq (text : List Char) (o : Outcome) : strictReport text o = .ok (report text o) := by
  unfold strictReport
  split
  · rfl
  · rename_i message place rejected
    simp only [strictSnippet?_eq, report, rejected, syntaxReport_eq]
    rfl

/-- A schema that may come with a text: none, a blank text for none, or the text of an object. -/
inductive Admits : Option String → Prop
  | absent : Admits none
  | blank {schema : String} : Text.allBlank schema.toList = true → Admits (some schema)
  | object {schema : String} {members : List (String × Value)} :
      Json.parse schema.toList = (.valid, .obj members) → Admits (some schema)

theorem Admits.given {schema : Option String} (admits : Admits schema) :
    ∃ given, givenSchema schema = .ok given := by
  cases admits with
  | absent => exact ⟨none, rfl⟩
  | blank blank => exact ⟨none, if_pos blank⟩
  | @object schema members parsed =>
    by_cases blank : Text.allBlank schema.toList = true
    · exact ⟨none, if_pos blank⟩
    · refine ⟨some (.obj members), ?_⟩
      simp only [givenSchema, blank, parsed]
      rfl

/-- A call has a text checked: against a schema that comes with it, or against an operation of a document
in the store. -/
inductive Call.Checks (s : Store) (text : String) : Call → Prop
  | alone {schema : Option String} : Admits schema → Checks s text (.validateJson text schema)
  | payload {id method path : String} {document : Value} : s.document id = .ok document →
      Checks s text (.validatePayload id method path text)

/-- What a check comes to, as a tool tells it. -/
def toldOf (text : List Char) : Except InputError Outcome → Except Refusal String
  | .ok o => .ok (report text o)
  | .error e => .error (.rejected e)

theorem Call.Checks.answered {s : Store} {text : String} {call : Call} (checks : call.Checks s text) :
    ∃ given : Given, (call.run s).1 = toldOf text.toList (given.check text.toList) := by
  cases checks with
  | @alone schema admits =>
    obtain ⟨given, read⟩ := admits.given
    refine ⟨.ofDemand { schema := given, room := s.limits.room }, ?_⟩
    rw [Given.check_ofDemand]
    simp only [Call.run, read]
    rfl
  | @payload id method path document holds =>
    obtain ⟨entry, found, rfl⟩ := Store.exists_entry holds
    refine ⟨{ method := method, path := path, resolver := entry.resolver, room := s.limits.room }, ?_⟩
    change Tool.answer (fun o => .ok (report text.toList o)) (s.check id method path text.toList).1 =
      toldOf text.toList (Spec.Resolver.check s.limits.room method path text.toList entry.resolver).1
    rw [Store.check_of_find? found]
    cases (Spec.Resolver.check s.limits.room method path text.toList entry.resolver).1 <;> rfl

/-- Whatever text a call has checked, it is answered, and nothing goes wrong while the answer is written;
only a valid text may get no answer, where reading a schema ends with an error. To a rejected text the
answer is a line that tells what is wrong, and a second line that quotes the range of the error unless there
is none. -/
theorem rejected_text_quoted {s : Store} {text : String} {call : Call} (checks : call.Checks s text) :
    (∃ (o : Outcome) (told : String), o.Coherent text.toList ∧ (call.run s).1 = .ok told ∧
      strictReport text.toList o = .ok told ∧
      ∀ message place, Json.diagnose text.toList = .invalid message place →
        Rejection text.toList message place told.toList
          (errorRanges text.toList (Json.diagnose text.toList))) ∨
    Json.diagnose text.toList = .valid ∧ ∃ e, (call.run s).1 = .error (.rejected e) := by
  obtain ⟨given, answered⟩ := checks.answered
  cases checked : given.check text.toList with
  | error e =>
    rw [checked] at answered
    exact .inr ⟨Given.check_failed checked, e, answered⟩
  | ok o =>
    rw [checked] at answered
    have coherent := (Given.check_possible checked).coherent
    refine .inl ⟨o, _, coherent, answered, strictReport_eq _ _, fun message place rejected => ?_⟩
    have plain := Json.visible_diagnose rejected
    have invalid : o.syntaxDiagnosis.isValid = false := by
      rw [coherent.diagnosis, rejected]
      rfl
    have told : report text.toList o = syntaxReport text.toList message place o.ranges := by
      simp only [report, coherent.diagnosis, rejected]
    rw [told, ← coherent.highlight]
    by_cases none : o.ranges = []
    · rw [none]
      exact syntaxReport_plain plain place
    · -- An outcome never has more than one range, and that one ends inside the text.
      obtain ⟨r, one, _, inside⟩ := coherent.marked invalid none
      rw [one]
      exact syntaxReport_quoting plain place inside

/-- A text that has a letter among the digits of a number. -/
def riverText : String :=
  "\x7b\n  \"title\": \"A Guide to the Rivers\",\n  \"pages\": 3O0,\n  \"chapters\": [\"source\", \"mouth\"]\n\x7d"

/-- The store with a single document, which declares no operation. -/
def pathlessStore : Store := ((Store.empty {} countedId).load "\x7b\"paths\": \x7b\x7d\x7d".toList).2

theorem rejected_text_quoted_riverText :
    let call : Call := .validatePayload "00000001" "post" "/rivers" riverText
    call.Checks pathlessStore riverText ∧
      Json.diagnose riverText.toList =
        .invalid "Expecting ',' delimiter: line 3 column 13 (char 50)" (some ⟨50, 3, 13⟩) ∧
      ∃ told, (call.run pathlessStore).1 = .ok told ∧ told.toList.count '\n' = 1 ∧
        told.toList.splitOn '\n' =
          ["Invalid JSON (line 3, column 13): Expecting ',' delimiter: line 3 column 13 (char 50)".toList,
            "  near: de to the Rivers\",\\n  \"pages\": >>>3O0<<<,\\n  \"chapters\": [\"source\", \"mo".toList] := by
  intro call
  have known : (pathlessStore.document "00000001").toOption.isSome = true := by decide +kernel
  have checks : call.Checks pathlessStore riverText := by
    cases holds : pathlessStore.document "00000001" with
    | error e =>
      rw [holds] at known
      exact nomatch known
    | ok document => exact .payload holds
  have rejected : Json.diagnose riverText.toList =
      .invalid "Expecting ',' delimiter: line 3 column 13 (char 50)" (some ⟨50, 3, 13⟩) := by decide +kernel
  have ranges : errorRanges riverText.toList (Json.diagnose riverText.toList) = [⟨49, 52, by decide⟩] := by
    decide +kernel
  rcases rejected_text_quoted checks with ⟨_, told, _, answered, _, rejection⟩ | ⟨valid, _⟩
  · have said := rejection _ _ rejected
    rw [ranges] at said
    cases said with
    | quoting _ split once =>
      exact ⟨checks, rejected, told, answered, once, split.trans (by decide +kernel)⟩
  · exact nomatch valid.symm.trans rejected

end Tool

end PayloadCheck
