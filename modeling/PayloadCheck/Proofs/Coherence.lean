import PayloadCheck.Http.Service
import PayloadCheck.Proofs.Highlight.Bounds
import PayloadCheck.Proofs.Http.Record
import PayloadCheck.Proofs.Json.Wording
import PayloadCheck.Proofs.Spec.Legible

namespace PayloadCheck

open Json Schema

/-- A place inside a text or at its end, with the line and the column of its offset. -/
structure Place.Marks (place : Place) (text : List Char) : Prop where
  lower : 0 ≤ place.offset
  upper : place.offset ≤ text.length
  line : place.line = (Text.position text place.offset).line
  column : place.column = (Text.position text place.offset).column

theorem Diagnosis.failure_marks {text : List Char} {message : String} {offset : Option Int}
    {place : Place} (placed : (failure text message offset).place? = some place) :
    place.Marks text := by
  cases offset with
  | none => exact nomatch placed
  | some offset =>
    by_cases outside : (offset < 0 || (text.length : Int) < offset) = true
    · simp [failure, outside, place?] at placed
    · have inside : 0 ≤ offset ∧ offset ≤ text.length := by
        simp only [Bool.or_eq_true, decide_eq_true_eq, not_or] at outside
        omega
      simp only [failure, outside, place?, Bool.false_eq_true, if_false, Option.some.injEq] at placed
      subst placed
      exact ⟨inside.1, inside.2, rfl, rfl⟩

theorem Json.diagnose_marks {text : List Char} {place : Place}
    (placed : (diagnose text).place? = some place) : place.Marks text := by
  unfold diagnose parse at placed
  split at placed
  · exact nomatch placed
  · split at placed
    · exact nomatch placed
    · exact Diagnosis.failure_marks placed

namespace Outcome

/-- The outcome of a text that is not checked against a schema. -/
def ofSyntax (text : List Char) : Outcome := ⟨diagnose text, errorRanges text (diagnose text), [], false⟩

/-- What the parts of an outcome say of each other. -/
structure Coherent (text : List Char) (o : Outcome) : Prop where
  unchecked : o.syntaxDiagnosis.isValid = false → o.schemaErrors = [] ∧ o.schemaChecked = false
  unmarked : o.syntaxDiagnosis.isValid = false →
    (o.ranges = [] ↔ o.syntaxDiagnosis.offset? = none ∨
      o.syntaxDiagnosis.offset? = some (text.length : Int))
  marked : o.syntaxDiagnosis.isValid = false → o.ranges ≠ [] →
    ∃ r, o.ranges = [r] ∧ r.start < r.stop ∧ r.stop ≤ text.length
  clean : o.syntaxDiagnosis.isValid = true → o.ranges = []
  checked : o.schemaErrors ≠ [] → o.schemaChecked = true
  blank : Text.allBlank text = true →
    o.syntaxDiagnosis.isValid = true ∧ o.schemaChecked = false
  verdict : o.valid = true ↔ o.syntaxDiagnosis.isValid = true ∧ o.schemaErrors = []
  place : ∀ place, o.syntaxDiagnosis.place? = some place → place.Marks text
  diagnosis : o.syntaxDiagnosis = diagnose text
  highlight : o.ranges = errorRanges text (diagnose text)

/-- The outcomes that a text may have. -/
inductive Possible (text : List Char) : Outcome → Prop
  | syntaxOnly : Possible text (ofSyntax text)
  | checked (errors : List SchemaError) :
      diagnose text = .valid → Text.allBlank text = false → Possible text ⟨.valid, [], errors, true⟩

theorem valid_iff (o : Outcome) :
    o.valid = true ↔ o.syntaxDiagnosis.isValid = true ∧ o.schemaErrors = [] := by
  simp [valid]

end Outcome

theorem Diagnosis.eq_valid {d : Diagnosis} (valid : d.isValid = true) : d = .valid := by
  cases d with
  | valid => rfl
  | invalid => exact nomatch valid

/-- The ranges of a text: none without an offset and none at the end, and otherwise one inside. -/
theorem diagnose_ranges (text : List Char) :
    ((diagnose text).offset? = none ∧ errorRanges text (diagnose text) = []) ∨
      ((diagnose text).offset? = some (text.length : Int) ∧
        errorRanges text (diagnose text) = []) ∨
      ∃ (offset : Nat) (r : Highlight.Range), (diagnose text).offset? = some (offset : Int) ∧
        offset < text.length ∧ errorRanges text (diagnose text) = [r] ∧ r.stop ≤ text.length := by
  cases placed : (diagnose text).place? with
  | none =>
    have unplaced : (diagnose text).offset? = none := by rw [Diagnosis.offset?, placed]; rfl
    exact .inl ⟨unplaced, errorRanges_of_no_offset text unplaced⟩
  | some place =>
    obtain ⟨lower, upper, _, _⟩ := diagnose_marks placed
    obtain ⟨offset, natural⟩ := Int.eq_ofNat_of_zero_le lower
    have here : (diagnose text).offset? = some (offset : Int) := by
      rw [Diagnosis.offset?, placed, ← natural]
      rfl
    rcases Nat.lt_or_ge offset text.length with inside | beyond
    · obtain ⟨r, one, within⟩ := errorRanges_inside here inside
      exact .inr (.inr ⟨offset, r, here, inside, one, within⟩)
    · have atEnd : offset = text.length := by omega
      subst atEnd
      exact .inr (.inl ⟨here, errorRanges_at_end here⟩)

theorem diagnose_of_blank {text : List Char} (blank : Text.allBlank text = true) :
    diagnose text = .valid := by
  rw [diagnose, parse_of_blank blank]

theorem errorRanges_of_valid (text : List Char) : errorRanges text .valid = [] :=
  errorRanges_of_no_offset text rfl

theorem Outcome.ofSyntax_coherent (text : List Char) : (ofSyntax text).Coherent text where
  unchecked _ := ⟨rfl, rfl⟩
  unmarked _ := by
    simp only [ofSyntax]
    rcases diagnose_ranges text with ⟨unplaced, empty⟩ | ⟨atEnd, empty⟩ |
      ⟨offset, r, placed, inside, one, _⟩
    · simp [unplaced, empty]
    · simp [atEnd, empty]
    · have before : (offset : Int) ≠ text.length := by omega
      simp [placed, one, before]
  marked _ nonempty := by
    simp only [ofSyntax] at nonempty ⊢
    rcases diagnose_ranges text with ⟨_, empty⟩ | ⟨_, empty⟩ | ⟨_, r, _, _, one, within⟩
    · exact absurd empty nonempty
    · exact absurd empty nonempty
    · exact ⟨r, one, r.nonempty, within⟩
  clean valid := by
    have same : diagnose text = .valid := Diagnosis.eq_valid valid
    simp only [ofSyntax, same, errorRanges_of_valid]
  checked nonempty := absurd rfl nonempty
  blank all := ⟨by simp only [ofSyntax, diagnose_of_blank all, Diagnosis.isValid], rfl⟩
  verdict := valid_iff _
  place _ placed := diagnose_marks placed
  diagnosis := rfl
  highlight := rfl

theorem Outcome.Possible.coherent {text : List Char} {o : Outcome} (possible : Possible text o) :
    o.Coherent text := by
  cases possible with
  | syntaxOnly => exact ofSyntax_coherent text
  | checked errors valid visible =>
    exact
      { unchecked := fun invalid => nomatch invalid
        unmarked := fun invalid => nomatch invalid
        marked := fun invalid => nomatch invalid
        clean := fun _ => rfl
        checked := fun _ => rfl
        blank := fun all => nomatch visible.symm.trans all
        verdict := valid_iff _
        place := fun _ placed => nomatch placed
        diagnosis := valid.symm
        highlight := by rw [valid, errorRanges_of_valid] }

section CheckText

variable {m : Type → Type} [Monad m]

/-- A text that is invalid or blank is not checked against a schema. -/
theorem checkText_of_unchecked {text : List Char}
    (unchecked : (diagnose text).isValid = false ∨ Text.allBlank text = true)
    (target : m (Option Target)) (references : Nat → Option (References m)) (room : Nat) :
    checkText text target references room = pure (.ofSyntax text) := by
  rcases unchecked with invalid | blank
  · unfold checkText Outcome.ofSyntax diagnose
    unfold diagnose at invalid
    generalize Json.parse text = parsed at invalid ⊢
    obtain ⟨d, v⟩ := parsed
    cases d with
    | valid => exact nomatch invalid
    | invalid message place => rfl
  · rw [Outcome.ofSyntax, diagnose_of_blank blank, errorRanges_of_valid]
    simp only [checkText, parse_of_blank blank, blank, if_true]

/-- The outcome of a valid text by the schema that was found for it, if any was. -/
def Outcome.byTarget (references : Nat → Option (References m)) (room : Nat) (v : Value) :
    Option Target → m Outcome
  | none => return ⟨.valid, [], [], false⟩
  | some target => return ⟨.valid, [], ← target.check references room v, true⟩

theorem checkText_of_visible {text : List Char} {v : Value} (parsed : Json.parse text = (.valid, v))
    (visible : Text.allBlank text = false) (target : m (Option Target))
    (references : Nat → Option (References m)) (room : Nat) :
    checkText text target references room = target >>= Outcome.byTarget references room v := by
  simp only [checkText, parsed, visible, Bool.false_eq_true, if_false]
  refine congrArg (target >>= ·) (funext fun found => ?_)
  cases found with
  | none => rfl
  | some target => rfl

end CheckText

/-- The outcome of a valid text that is not blank tells whether a schema was found for it. -/
theorem Outcome.byTarget_ok {targets : Spec.Lookups (Option Target)}
    {references : Nat → Option (References Spec.Lookups)} {room : Nat} {v : Value} {r : Spec.Resolver}
    {o : Outcome} (given : ((targets >>= byTarget references room v) r).1 = .ok o) :
    ∃ found, (targets r).1 = .ok found ∧
      (found = none ∧ o = ⟨.valid, [], [], false⟩ ∨
        found ≠ none ∧ ∃ errors, o = ⟨.valid, [], errors, true⟩) := by
  obtain ⟨found, resolved, ended⟩ := Spec.Lookups.bind_ok.mp given
  refine ⟨found, resolved, ?_⟩
  cases found with
  | none => exact .inl ⟨rfl, (Except.ok.inj ended).symm⟩
  | some target =>
    obtain ⟨errors, _, ended⟩ := Spec.Lookups.bind_ok.mp ended
    exact .inr ⟨Option.some_ne_none _, errors, (Except.ok.inj ended).symm⟩

/-- What a text is checked against, and how many calls there is room for. A schema may be given as a value or
as it has been read, and counts only if it is one; a resolver wins over a document. -/
structure Given where
  schema : Option Target := none
  document : Option Value := none
  method : Option String := none
  path : Option String := none
  resolver : Option Spec.Resolver := none
  room : Nat := standardRoom

namespace Given

def isSchema : Target → Bool
  | .raw v => v.isObject
  | .node _ => true

def known (given : Given) : Option Spec.Resolver :=
  given.resolver.or (given.document.map Spec.Resolver.ofDocument)

/-- The schema that was given, or that of the operation in a resolver. -/
def target (given : Given) : Spec.Lookups (Option Target) :=
  match given.schema.filter isSchema, given.known with
  | some (.raw v), _ => some <$> Demand.outright given.room v
  | some (.node n), _ => return some (.node n)
  | none, none => return none
  | none, some _ =>
    match given.method, given.path with
    | some method, some path => Spec.Resolver.target given.room method path
    | _, _ => return none

def knownDocument (given : Given) : Option Value := given.known.map (·.document)

def check (given : Given) (text : List Char) : Except InputError Outcome :=
  (checkText text given.target (fun k => given.knownDocument.map (Spec.Resolver.references k)) given.room
    (given.known.getD (.ofDocument .null))).1

/-- The outcome for a valid text that is not blank and stands for a value. -/
def checkValue (given : Given) (v : Value) : Except InputError Outcome :=
  let checking : Spec.Lookups Outcome := given.target >>= Outcome.byTarget
    (fun k => given.knownDocument.map (Spec.Resolver.references k)) given.room v
  (checking (given.known.getD (.ofDocument .null))).1

/-- Checks a text, with all that may go wrong on the way to an outcome. Diagnoses and ranges can be
refused; schema errors and outcomes take whatever they are made of. -/
def strictCheck (given : Given) (text : List Char) :
    Except ReportFault (Except InputError Outcome) := do
  let (d, v) ← strictParse text
  match d with
  | .invalid _ _ => do
    let ranges ← (strictErrorRanges text d).mapError .fields
    return .ok ⟨d, ranges, [], false⟩
  | .valid =>
    return if Text.allBlank text then .ok ⟨.valid, [], [], false⟩ else given.checkValue v

theorem check_of_unchecked (given : Given) {text : List Char}
    (unchecked : (diagnose text).isValid = false ∨ Text.allBlank text = true) :
    given.check text = .ok (.ofSyntax text) := by
  rw [check, checkText_of_unchecked unchecked]
  rfl

theorem check_of_visible (given : Given) {text : List Char} {v : Value}
    (parsed : Json.parse text = (.valid, v)) (visible : Text.allBlank text = false) :
    given.check text = given.checkValue v := by
  rw [check, checkText_of_visible parsed visible]
  rfl

theorem ofSyntax_of_valid {text : List Char} (valid : diagnose text = .valid) :
    Outcome.ofSyntax text = ⟨.valid, [], [], false⟩ := by
  rw [Outcome.ofSyntax, valid, errorRanges_of_valid]

theorem check_possible {given : Given} {text : List Char} {o : Outcome}
    (checked : given.check text = .ok o) : Outcome.Possible text o := by
  cases parsed : Json.parse text with
  | mk d v =>
    have diagnosed : diagnose text = d := congrArg Prod.fst parsed
    cases d with
    | invalid message place =>
      rw [check_of_unchecked given (.inl (by rw [diagnosed, Diagnosis.isValid]))] at checked
      cases checked
      exact .syntaxOnly
    | valid =>
      cases visible : Text.allBlank text with
      | true =>
        rw [check_of_unchecked given (.inr visible)] at checked
        cases checked
        exact .syntaxOnly
      | false =>
        rw [check_of_visible given parsed visible] at checked
        obtain ⟨_, _, ⟨_, rfl⟩ | ⟨_, errors, rfl⟩⟩ := Outcome.byTarget_ok checked
        · rw [← ofSyntax_of_valid diagnosed]
          exact .syntaxOnly
        · exact .checked errors diagnosed visible

/-- Only a valid text may have no outcome. -/
theorem check_failed {given : Given} {text : List Char} {e : InputError}
    (failed : given.check text = .error e) : diagnose text = .valid := by
  cases diagnosed : diagnose text with
  | valid => rfl
  | invalid message place =>
    rw [check_of_unchecked given (.inl (by rw [diagnosed, Diagnosis.isValid]))] at failed
    exact nomatch failed

/-- No diagnosis and no range is refused on the way to an outcome. -/
theorem strictCheck_eq (given : Given) (text : List Char) :
    given.strictCheck text = .ok (given.check text) := by
  rw [strictCheck, strictParse_eq]
  cases parsed : Json.parse text with
  | mk d v =>
    have diagnosed : diagnose text = d := congrArg Prod.fst parsed
    cases d with
    | invalid message place =>
      rw [check_of_unchecked given (.inl (by rw [diagnosed, Diagnosis.isValid])), Outcome.ofSyntax,
        diagnosed]
      simp only [bind, Except.bind, strictErrorRanges_eq]
      rfl
    | valid =>
      cases visible : Text.allBlank text with
      | true =>
        rw [check_of_unchecked given (.inr visible), ofSyntax_of_valid diagnosed]
        simp only [bind, Except.bind, if_true]
        rfl
      | false =>
        rw [check_of_visible given parsed visible]
        simp only [bind, Except.bind]
        rfl

/-- The texts in what is given consist of characters. -/
structure Whole (given : Given) : Prop where
  schema : ∀ v, given.schema = some (.raw v) → v.isWhole = true
  document : ∀ document ∈ given.knownDocument, document.isWhole = true

theorem Whole.target_succeeds {given : Given} (whole : given.Whole) :
    Spec.Resolver.Succeeds (given.knownDocument.getD .null) given.target := by
  unfold target
  split
  · rename_i v found
    have given_schema : given.schema = some (.raw v) := (Option.filter_eq_some_iff.mp found).1
    have clear : Node.readError? given.room v = none :=
      Node.readError?_eq_none (Node.hasStrayName_of_whole v (whole.schema v given_schema)) given.room
    rw [Demand.outright, clear]
    exact fun r same => ⟨_, rfl, same⟩
  · exact fun r same => ⟨_, rfl, same⟩
  · exact fun r same => ⟨_, rfl, same⟩
  · rename_i r _ found
    have known : given.knownDocument = some r.document := by rw [knownDocument, found, Option.map_some]
    have legible : Spec.Legible r.document := Spec.legible_of_whole (whole.document _ known)
    rw [known]
    split
    · exact Spec.Resolver.target_succeeds legible _ _ _
    · exact fun r same => ⟨_, rfl, same⟩

/-- Where all texts consist of characters, a text has an outcome. -/
theorem Whole.check_ok {given : Given} (whole : given.Whole) (text : List Char) :
    ∃ o, given.check text = .ok o := by
  have legible : ∀ spec ∈ given.knownDocument, Spec.Legible spec := fun spec known =>
    Spec.legible_of_whole (whole.document spec known)
  have same : (given.known.getD (.ofDocument .null)).document = given.knownDocument.getD .null := by
    unfold knownDocument
    cases given.known <;> rfl
  obtain ⟨o, checked, _⟩ :=
    Spec.Resolver.checkText_succeeds legible whole.target_succeeds text given.room _ same
  exact ⟨o, checked⟩

/-- A demand, of which the schema is a value and which knows of no resolver. -/
def ofDemand (d : Demand) : Given where
  schema := d.schema.map .raw
  document := d.document
  method := d.method
  path := d.path
  room := d.room

theorem check_ofDemand (d : Demand) (text : List Char) : (ofDemand d).check text = run text d := by
  obtain ⟨schema, document, method, path, room⟩ := d
  have target : (ofDemand ⟨schema, document, method, path, room⟩).target =
      Demand.target ⟨schema, document, method, path, room⟩ := by
    rcases schema with _ | schema
    · rcases document with _ | document
      · rfl
      · rcases method with _ | method
        · rfl
        · rcases path with _ | path <;> rfl
    · cases schema with
      | obj members => rfl
      | _ =>
        rcases document with _ | document
        · rfl
        · rcases method with _ | method
          · rfl
          · rcases path with _ | path <;> rfl
  rw [check, run, target]
  rcases document with _ | document <;> rfl

end Given

/-- A request brings a text whose syntax is to be checked. -/
structure Http.Request.ChecksSyntax (r : Request) (text : String) : Prop where
  route : Route.of r.method (percentDecode r.path) = .action .checkSyntax
  record : (r.content.toOption.bind fun content =>
    (content.record (singleText "text")).toOption) = some text

/-- The body of a diagnosis is made of characters alone, as it repeats nothing of the text. -/
theorem Http.diagnosisValue_isWhole (text : List Char) : (diagnosisValue (diagnose text)).isWhole = true := by
  cases diagnosed : diagnose text with
  | valid => decide
  | invalid message place =>
    have spoken : Text.isWhole message = true := (visible_diagnose diagnosed).isWhole
    have names : ["valid", "error_message", "offset", "line", "column"].all Text.isWhole = true := by
      decide
    cases place <;>
      simp_all [diagnosisValue, textValue, numberValue, Diagnosis.message?, Diagnosis.offset?,
        Diagnosis.place?, Value.isWhole, Value.haveWhole]

theorem Http.rangesValue_isWhole (ranges : List Highlight.Range) : (rangesValue ranges).isWhole = true := by
  have names : Text.isWhole "start" = true ∧ Text.isWhole "end" = true := by decide
  refine Value.areWhole_iff.mpr fun v among => ?_
  obtain ⟨r, _, rfl⟩ := List.mem_map.mp among
  simp [Value.isWhole, Value.haveWhole, names]

theorem Http.Service.handle_checkSyntax {service : Service} {r : Request} {text : String}
    (fits : r.isTooLarge service.bodyLimit = false) (checks : r.ChecksSyntax text) :
    (service.handle r).1 =
      .ok (.diagnosis (diagnose text.toList) (errorRanges text.toList (diagnose text.toList))) := by
  obtain ⟨content, read, taken⟩ := record_eq_ok checks.record
  have names : Text.isWhole "syntax" = true ∧ Text.isWhole "ranges" = true := by decide
  have sent : send (.diagnosis (diagnose text.toList) (errorRanges text.toList (diagnose text.toList))) =
      .ok (.diagnosis (diagnose text.toList) (errorRanges text.toList (diagnose text.toList))) :=
    if_pos (by simp [Answer.body?, Value.isWhole, Value.haveWhole, names, diagnosisValue_isWhole,
      rangesValue_isWhole])
  simp [handle, dispatch, fits, checks.route, read, taken, Action.readsBody, Action.run, syntaxReply,
    Except.bind, sent]

/-- Whatever a text is checked against, no diagnosis and no range is refused on the way, the parts of an
outcome fit together, and a request to check the syntax alone is answered with the same diagnosis and the
same ranges. There is an outcome unless a schema has a name that is no text. A demand is a case of this. -/
theorem outcome_coherent (text : String) (given : Given) :
    given.strictCheck text.toList = .ok (given.check text.toList) ∧
    (given.Whole → ∃ o, given.check text.toList = .ok o) ∧
    (∀ o, given.check text.toList = .ok o → o.Coherent text.toList ∧
      ∀ (service : Http.Service) (r : Http.Request), r.isTooLarge service.bodyLimit = false →
        r.ChecksSyntax text → (service.handle r).1 = .ok (.diagnosis o.syntaxDiagnosis o.ranges)) ∧
    ∀ d : Demand, run text.toList d = (Given.ofDemand d).check text.toList := by
  refine ⟨given.strictCheck_eq _, fun whole => whole.check_ok _, fun o checked => ?_,
    fun d => (Given.check_ofDemand d _).symm⟩
  have coherent := (Given.check_possible checked).coherent
  refine ⟨coherent, fun service r fits checks => ?_⟩
  rw [coherent.diagnosis, coherent.highlight]
  exact Http.Service.handle_checkSyntax fits checks

/-- An array whose second element is cut short. -/
def cutArray : String := "[1, tru]"

/-- The request that asks for its syntax. -/
def cutPost : Http.Request where
  method := "POST"
  path := "/validate/syntax".toList
  query := []
  headers := [("content-type", "application/json".toList)]
  pieces := [Text.Utf8.encode "\x7b\"text\": \"[1, tru]\"\x7d".toList]

theorem outcome_coherent_cutArray :
    let service : Http.Service := ⟨Http.standardBodyLimit, none⟩
    cutPost.isTooLarge service.bodyLimit = false ∧ cutPost.ChecksSyntax cutArray ∧
      (service.handle cutPost).1 =
        .ok (.diagnosis (.invalid "Expecting value: line 1 column 5 (char 4)" (some ⟨4, 1, 5⟩))
          [⟨4, 7, by decide⟩]) := by
  intro service
  have fits : cutPost.isTooLarge service.bodyLimit = false := by decide +kernel
  have checks : cutPost.ChecksSyntax cutArray := ⟨by decide +kernel, by decide +kernel⟩
  obtain ⟨_, ends, each, _⟩ := outcome_coherent cutArray {}
  obtain ⟨o, checked⟩ := ends ⟨fun _ absent => (nomatch absent), fun _ absent => nomatch absent⟩
  have found : (Given.check {} cutArray.toList).toOption.map (fun o => (o.syntaxDiagnosis, o.ranges)) =
      some (.invalid "Expecting value: line 1 column 5 (char 4)" (some ⟨4, 1, 5⟩),
        [⟨4, 7, by decide⟩]) := by decide +kernel
  rw [checked] at found
  obtain ⟨diagnosis, ranges⟩ := Prod.mk.inj (Option.some.inj found)
  refine ⟨fits, checks, ?_⟩
  rw [(each o checked).2 service cutPost fits checks, diagnosis, ranges]

end PayloadCheck
