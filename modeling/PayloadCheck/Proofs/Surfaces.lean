import PayloadCheck.Proofs.Http.BodyLimit
import PayloadCheck.Proofs.Loading
import PayloadCheck.Proofs.Store.Telling
import PayloadCheck.Proofs.Tool.Report

namespace PayloadCheck

open Json Schema

/-- What is wanted of a store. -/
inductive Errand
  | load (text : String)
  | list
  | operations (id : String)
  | schema (id method path : String)
  | remove (id : String)
  | check (id method path text : String)

namespace Errand

def command : Errand → Store.Command
  | .load text => .load text.toList
  | .list => .list
  | .operations id => .operations id
  | .schema id method path => .schema id method path
  | .remove id => .remove id
  | .check id method path text => .check id method path text.toList

/-- The call of a tool that runs an errand. -/
def call : Errand → Tool.Call
  | .load text => .loadDocument text
  | .list => .listDocuments
  | .operations id => .listOperations id
  | .schema id method path => .requestSchema id method path
  | .remove id => .removeDocument id
  | .check id method path text => .validatePayload id method path text

/-- The reply of the service to an errand, before it is sent. -/
def reply (s : Store) : Errand → Http.Reply
  | .load text => Http.reply (fun report => .ok (.loaded report)) (s.load text.toList).1
  | .list => Http.reply (fun all => .ok (.documents all)) s.list
  | .operations id => Http.reply (fun all => .ok (.operations all)) (s.operations id)
  | .schema id method path =>
    Http.reply (Http.schemaReply id method path) (s.schema id method path).1
  | .remove id => Http.reply (fun _ => .ok .removed) (s.remove id).1
  | .check id method path text =>
    Http.reply (fun o => .ok (.outcome o)) (s.check id method path text.toList).1

end Errand

namespace Http

namespace Answer

/-- An answer says that there is no document with an id. -/
def SaysUnknown (id : String) (a : Answer) : Prop :=
  a.status = 404 ∧
    a.body? = some (.obj [("detail", .str ("Specification '" ++ id ++ "' not found"))])

/-- An answer tells why there is no document in a text. -/
def SaysUnloadable (messages : List String) (a : Answer) : Prop :=
  a.status = 422 ∧
    a.body? = some (.obj [("detail", .obj [("message", .str "Invalid specification document"),
      ("errors", .arr (messages.map .str))])])

/-- An answer shows the schema of an operation. -/
def ShowsSchema (id method path : String) (schema : Value) (a : Answer) : Prop :=
  a.status = 200 ∧
    a.body? = some (.obj [("spec_id", .str id), ("method", .str (Spec.upperCase method)),
      ("path", .str path), ("schema", schema)])

theorem saysUnknown_iff {id : String} {a : Answer} : a.SaysUnknown id ↔ a = .unknownDocument id := by
  constructor
  · rintro ⟨status, body⟩
    cases a with
    | unknownDocument other =>
      have same : "Specification '" ++ other ++ "' not found" = "Specification '" ++ id ++ "' not found" := by
        simpa [body?, detail] using body
      have lists := congrArg String.toList same
      simp only [String.toList_append, List.append_cancel_right_eq, List.append_cancel_left_eq] at lists
      rw [String.toList_inj.mp lists]
    | nowhere =>
      have same : "Not Found" = "Specification '" ++ id ++ "' not found" := by
        simpa [body?, detail] using body
      have first := congrArg (fun s : String => s.toList.head?) same
      simp at first
    | noSchema method path =>
      have same : "No request-body schema for " ++ method ++ " " ++ path =
          "Specification '" ++ id ++ "' not found" := by
        simpa [body?, detail] using body
      have first := congrArg (fun s : String => s.toList.head?) same
      simp at first
    | _ => cases status
  · rintro rfl
    exact ⟨rfl, rfl⟩

theorem saysUnloadable_iff {messages : List String} {a : Answer} :
    a.SaysUnloadable messages ↔ a = .unloadable messages := by
  constructor
  · rintro ⟨status, body⟩
    cases a with
    | unloadable others =>
      have same : others.map Value.str = messages.map Value.str := by simpa [body?, detail] using body
      rw [List.map_injective_iff.mpr (fun _ _ => Value.str.inj) same]
    | rejected errors => simp [body?, detail] at body
    | _ => cases status
  · rintro rfl
    exact ⟨rfl, rfl⟩

theorem ShowsSchema.requestSchema {id method path : String} {shown schema : Value}
    (shows_ : ShowsSchema id method path shown (.requestSchema id (Spec.upperCase method) path schema)) :
    shown = schema.sent := by
  have body := shows_.2
  simp only [body?, Option.some.injEq, Value.obj.injEq, List.cons.injEq, Prod.mk.injEq, true_and,
    and_true] at body
  exact body.symm

theorem ShowsSchema.of_requestSchema {id method path : String} {schema : Value} :
    ShowsSchema id method path schema.sent (.requestSchema id (Spec.upperCase method) path schema) :=
  ⟨rfl, rfl⟩

end Answer

/-- What is sent is an answer of which the whole body consists of characters. -/
theorem send_iff {given : Reply} {a : Answer} :
    given.bind Service.send = .ok a ↔ given = .ok a ∧ a.body?.all (·.isWhole) = true := by
  cases given with
  | error failure => exact iff_of_false nofun fun both => nomatch both.1
  | ok b =>
    constructor
    · intro sent
      obtain rfl := send_ok sent
      refine ⟨rfl, ?_⟩
      by_contra split_
      have failed : Service.send a = .error .notWhole := if_neg split_
      exact nomatch failed.symm.trans sent
    · rintro ⟨same, whole⟩
      cases same
      exact if_pos whole

/-- That there is no document with an id is sent if the id consists of characters. -/
theorem unknownDocument_whole (id : String) :
    (Answer.unknownDocument id).body?.all (·.isWhole) = Text.isWhole id := by
  have words : Text.isWhole "detail" = true ∧ Text.isWhole "Specification '" = true ∧
      Text.isWhole "' not found" = true := by decide
  simp [Answer.body?, detail, Value.isWhole, Value.haveWhole, words]

/-- A schema is sent if it can be written down and what it is the schema of consists of characters. -/
theorem requestSchema_whole {id method path : String} {schema : Value} (plain : schema.IsPlain)
    (names : [id, method, path].all Text.isWhole = true) :
    (Answer.requestSchema id (Spec.upperCase method) path schema).body?.all (·.isWhole) = true := by
  have words : ["spec_id", "method", "path", "schema"].all Text.isWhole = true := by decide
  simp only [List.all_cons, List.all_nil, Bool.and_true, Bool.and_eq_true] at words names
  have upper : Text.isWhole (Spec.upperCase method) = true := Text.isWhole_upper names.2.1
  have sent := Value.sent_eq schema plain.finite plain.whole
  simp [Answer.body?, Value.isWhole, Value.haveWhole, words, names, upper, sent, plain.whole]

/-- An outcome is sent if its diagnosis is that of a text and its schema errors can be told. -/
theorem outcome_whole {text : List Char} {o : Outcome} (diagnosed : o.syntaxDiagnosis = diagnose text)
    (told : SpokenErrors o.schemaErrors) : (Answer.outcome o).body?.all (·.isWhole) = true := by
  have words : ["syntax", "ranges", "schema_errors", "schema_checked", "valid", "path",
      "message"].all Text.isWhole = true := by decide
  simp only [List.all_cons, List.all_nil, Bool.and_true, Bool.and_eq_true] at words
  have errors : Value.areWhole (o.schemaErrors.map schemaErrorValue) = true := by
    refine Value.areWhole_iff.mpr fun v among => ?_
    obtain ⟨e, listed, rfl⟩ := List.mem_map.mp among
    simp [schemaErrorValue, Value.isWhole, Value.haveWhole, words, told e listed]
  simp [Answer.body?, outcomeValue, Value.isWhole, Value.haveWhole, words, errors, diagnosed,
    diagnosisValue_isWhole, rangesValue_isWhole]

end Http

/-- Only where a schema is found, and can be written back, does the service show one. -/
theorem Http.schemaReply_shows {id method path : String} {result : Except StoreError (Option Node)}
    {a : Http.Answer} {shown : Value} (given : Http.reply (Http.schemaReply id method path) result = .ok a)
    (shows_ : a.ShowsSchema id method path shown) :
    ∃ node schema, result = .ok (some node) ∧ node.write? = some schema ∧ shown = schema.sent := by
  rcases Http.reply_ok given with ⟨found, result, told⟩ | ⟨other, _, rfl⟩ | ⟨messages, _, rfl⟩
  · cases found with
    | none =>
      cases told
      exact nomatch shows_.1
    | some node =>
      cases written : node.write? with
      | none => simp [Http.schemaReply, written] at told
      | some schema =>
        simp only [Http.schemaReply, written] at told
        split at told
        · exact nomatch told
        · cases told
          exact ⟨node, schema, result, written, shows_.requestSchema⟩
  · exact nomatch shows_.1
  · exact nomatch shows_.1

/-- A plain schema is printed, and its text begins with a curly bracket. -/
theorem render?_schema {node : Node} (plain : node.toValue.IsPlain) :
    ∃ text, render? 0 node.toValue = some text ∧ text.head? = some '\x7b' := by
  cases written : render? 0 node.toValue with
  | none => exact absurd ((render?_eq_none 0 _).mp written) plain.short
  | some text =>
    rw [node.toValue_eq] at written
    exact ⟨text, rfl, render?_obj_head written⟩

/-- What is said where an operation, its method in capitals, has no schema. -/
def Tool.noSchemaText (capitals path : String) : String :=
  "No JSON request-body schema for " ++ capitals ++ " " ++ path ++ "."

theorem Tool.noSchemaText_head (capitals path : String) :
    (noSchemaText capitals path).toList.head? = some 'N' := by
  unfold noSchemaText
  simp

section

variable {id method path : String} {result : Except StoreError (Option Node)}
  (plain : ∀ node, result = .ok (some node) → node.toValue.IsPlain)
include plain

/-- The service shows a schema wherever one is found that can be written back. -/
theorem Http.schemaReply_shows_iff (names : [id, method, path].all Text.isWhole = true) :
    (∃ a v, (Http.reply (Http.schemaReply id method path) result).bind Service.send = .ok a ∧
      a.ShowsSchema id method path v) ↔
      ∃ node schema, result = .ok (some node) ∧ node.write? = some schema := by
  constructor
  · rintro ⟨a, v, sent, shows_⟩
    obtain ⟨node, schema, found, written, _⟩ := Http.schemaReply_shows (send_iff.mp sent).1 shows_
    exact ⟨node, schema, found, written⟩
  · rintro ⟨node, schema, rfl, written⟩
    obtain rfl := Node.write?_eq_some written
    obtain ⟨text, printed, _⟩ := render?_schema (plain node rfl)
    have given : Http.schemaReply id method path (some node) =
        .ok (.requestSchema id (Spec.upperCase method) path node.toValue) := by
      simp [Http.schemaReply, written, printed]
    exact ⟨_, _, send_iff.mpr ⟨given, requestSchema_whole (plain node rfl) names⟩, .of_requestSchema⟩

/-- The tool prints a schema wherever one is found that can be written back. -/
theorem Tool.schemaText_prints_iff :
    (∃ told, Tool.answer (Tool.schemaText method path) result = .ok told ∧
      told ≠ Tool.noSchemaText (Spec.upperCase method) path) ↔
      ∃ node schema, result = .ok (some node) ∧ node.write? = some schema := by
  constructor
  · rintro ⟨told, said, other⟩
    rcases result with e | _ | node
    · exact nomatch said
    · exact absurd (Except.ok.inj said).symm other
    · cases written : node.write? with
      | none => simp [Tool.answer, Tool.schemaText, written] at said
      | some schema => exact ⟨node, schema, rfl, written⟩
  · rintro ⟨node, schema, rfl, written⟩
    obtain rfl := Node.write?_eq_some written
    obtain ⟨text, printed, first⟩ := render?_schema (plain node rfl)
    have said : Tool.schemaText method path (some node) = .ok (String.ofList text) := by
      simp [Tool.schemaText, written, printed]
    have other := Tool.noSchemaText_head (Spec.upperCase method) path
    refine ⟨String.ofList text, said, fun same => ?_⟩
    rw [← same, String.toList_ofList, first] at other
    exact absurd other (by decide)

end

namespace Tool.Refusal

/-- A refusal tells that there is no document with an id. -/
def SaysUnknown (id : String) (refusal : Refusal) : Prop :=
  refusal = .unknownId id ∧ refusal.message = "No specification loaded with id '" ++ id ++ "'"

/-- A refusal tells why there is no document in a text, in one line. -/
def SaysUnloadable (messages : List String) (refusal : Refusal) : Prop :=
  refusal = .unloadable messages ∧
    refusal.message = "Could not load specification: " ++ "; ".intercalate messages

theorem saysUnknown_iff {id : String} {refusal : Refusal} :
    refusal.SaysUnknown id ↔ refusal = .unknownId id := by
  refine ⟨And.left, ?_⟩
  rintro rfl
  exact ⟨rfl, rfl⟩

theorem saysUnloadable_iff {messages : List String} {refusal : Refusal} :
    refusal.SaysUnloadable messages ↔ refusal = .unloadable messages := by
  refine ⟨And.left, ?_⟩
  rintro rfl
  exact ⟨rfl, rfl⟩

end Tool.Refusal

section

variable {α : Type} {f : α → Http.Reply} {w : α → Except Tool.Refusal String}

/-- Where a surface makes something of a result, it neither says that a document is unknown nor that a
text holds none. -/
structure Clear (f : α → Http.Reply) (w : α → Except Tool.Refusal String) : Prop where
  answers : ∀ v a, f v = .ok a →
    (∀ id, a ≠ .unknownDocument id) ∧ ∀ messages, a ≠ .unloadable messages
  refusals : ∀ v refusal, w v = .error refusal →
    (∀ id, refusal ≠ .unknownId id) ∧ ∀ messages, refusal ≠ .unloadable messages

theorem Clear.of_ok (answer : α → Http.Answer) (told : α → String)
    (good : ∀ v, decide ((answer v).status < 300) = true) :
    Clear (fun v => .ok (answer v)) (fun v => .ok (told v)) where
  answers v a given := by
    cases given
    have status := of_decide_eq_true (good v)
    constructor
    · intro id same
      rw [same] at status
      simp [Http.Answer.status] at status
    · intro messages same
      rw [same] at status
      simp [Http.Answer.status] at status
  refusals _ _ refused := nomatch refused

theorem Clear.unknown (clear : Clear f w) (result : Except StoreError α) (id : String) :
    (∃ a, (Http.reply f result).bind Http.Service.send = .ok a ∧ a.SaysUnknown id) ↔
      Text.isWhole id = true ∧
        ∃ refusal, Tool.answer w result = .error refusal ∧ refusal.SaysUnknown id := by
  simp only [Http.Answer.saysUnknown_iff, Tool.Refusal.saysUnknown_iff, exists_eq_right, Http.send_iff,
    Http.unknownDocument_whole, and_comm (b := Text.isWhole id = true)]
  refine and_congr_right fun _ => ?_
  cases result with
  | ok v =>
    refine iff_of_false (fun given => (clear.answers v _ given).1 id rfl) fun refused => ?_
    exact (clear.refusals v _ refused).1 id rfl
  | error e => cases e <;> simp [Http.reply, Tool.answer, Tool.Refusal.ofStore]

theorem Clear.unloadable (clear : Clear f w) (result : Except StoreError α) (messages : List String) :
    (∃ a, (Http.reply f result).bind Http.Service.send = .ok a ∧ a.SaysUnloadable messages) ↔
      messages.all Text.isWhole = true ∧
        ∃ refusal, Tool.answer w result = .error refusal ∧ refusal.SaysUnloadable messages := by
  simp only [Http.Answer.saysUnloadable_iff, Tool.Refusal.saysUnloadable_iff, exists_eq_right,
    Http.send_iff, Http.unloadable_whole, and_comm (b := messages.all Text.isWhole = true)]
  refine and_congr_right fun _ => ?_
  cases result with
  | ok v =>
    refine iff_of_false (fun given => (clear.answers v _ given).2 messages rfl) fun refused => ?_
    exact (clear.refusals v _ refused).2 messages rfl
  | error e => cases e <;> simp [Http.reply, Tool.answer, Tool.Refusal.ofStore]

end

theorem schemaReply_clear (id method path : String) :
    Clear (Http.schemaReply id method path) (Tool.schemaText method path) where
  answers node a given := by
    unfold Http.schemaReply at given
    split at given
    · cases given
      constructor <;> rintro _ ⟨⟩
    · split at given
      · cases given
      · split at given
        · cases given
        · cases given
          constructor <;> rintro _ ⟨⟩
  refusals node refusal refused := by
    unfold Tool.schemaText at refused
    split at refused
    · cases refused
    · split at refused
      · cases refused
        constructor <;> rintro _ ⟨⟩
      · split at refused
        · cases refused
        · cases refused
          constructor <;> rintro _ ⟨⟩

namespace Errand

/-- What the service sends in answer to an errand, and what the tool says, tell of each other. -/
structure Agree (e : Errand) (answered : Http.Reply) (said : Except Tool.Refusal String) : Prop where
  unknown : ∀ id, (∃ a, answered = .ok a ∧ a.SaysUnknown id) ↔
    Text.isWhole id = true ∧ ∃ refusal, said = .error refusal ∧ refusal.SaysUnknown id
  unloadable : ∀ messages, (∃ a, answered = .ok a ∧ a.SaysUnloadable messages) ↔
    messages.all Text.isWhole = true ∧
      ∃ refusal, said = .error refusal ∧ refusal.SaysUnloadable messages
  schema : ∀ id method path, e = .schema id method path → [id, method, path].all Text.isWhole = true →
    ((∃ a v, answered = .ok a ∧ a.ShowsSchema id method path v) ↔
      ∃ told, said = .ok told ∧ told ≠ Tool.noSchemaText (Spec.upperCase method) path) ∧
    ∀ a v, answered = .ok a → a.ShowsSchema id method path v →
      ∃ text, render? 0 v = some text ∧ said = .ok (String.ofList text)
  checked : ∀ id method path text, e = .check id method path text →
    ((∃ o, answered = .ok (.outcome o)) ↔ ∃ told, said = .ok told) ∧
    ∀ o, answered = .ok (.outcome o) → ∃ told, said = .ok told ∧ Tool.Tells o told

theorem refusals_agree (s : Store) (e : Errand) :
    (∀ id, (∃ a, (e.reply s).bind Http.Service.send = .ok a ∧ a.SaysUnknown id) ↔
      Text.isWhole id = true ∧ ∃ refusal, (e.call.run s).1 = .error refusal ∧ refusal.SaysUnknown id) ∧
    ∀ messages, (∃ a, (e.reply s).bind Http.Service.send = .ok a ∧ a.SaysUnloadable messages) ↔
      messages.all Text.isWhole = true ∧
        ∃ refusal, (e.call.run s).1 = .error refusal ∧ refusal.SaysUnloadable messages := by
  cases e with
  | load text =>
    have clear := Clear.of_ok .loaded Tool.loadText fun _ => rfl
    exact ⟨clear.unknown _, clear.unloadable _⟩
  | list =>
    have clear := Clear.of_ok .documents Tool.listText fun _ => rfl
    exact ⟨clear.unknown _, clear.unloadable _⟩
  | operations id =>
    have clear := Clear.of_ok .operations Tool.operationsText fun _ => rfl
    exact ⟨clear.unknown _, clear.unloadable _⟩
  | schema id method path =>
    have clear := schemaReply_clear id method path
    exact ⟨clear.unknown _, clear.unloadable _⟩
  | remove id =>
    have clear := Clear.of_ok (fun _ : Unit => .removed)
      (fun _ => "Specification " ++ id ++ " removed.") fun _ => rfl
    exact ⟨clear.unknown _, clear.unloadable _⟩
  | check id method path text =>
    have clear := Clear.of_ok .outcome (Tool.report text.toList) fun _ => rfl
    exact ⟨clear.unknown _, clear.unloadable _⟩

section

variable {s : Store} (plain : s.Plain)
include plain

theorem agree_schema (id method path : String) (names : [id, method, path].all Text.isWhole = true) :
    let answered := ((Errand.schema id method path).reply s).bind Http.Service.send
    let said := ((Errand.schema id method path).call.run s).1
    ((∃ a v, answered = .ok a ∧ a.ShowsSchema id method path v) ↔
      ∃ told, said = .ok told ∧ told ≠ Tool.noSchemaText (Spec.upperCase method) path) ∧
    ∀ a v, answered = .ok a → a.ShowsSchema id method path v →
      ∃ text, render? 0 v = some text ∧ said = .ok (String.ofList text) := by
  intro answered said
  have plainly (node : Node) (found : (s.schema id method path).1 = .ok (some node)) :=
    plain.schema found
  refine ⟨(Http.schemaReply_shows_iff plainly names).trans (Tool.schemaText_prints_iff plainly).symm,
    fun a v sent shows_ => ?_⟩
  obtain ⟨node, schema, found, written, rfl⟩ :=
    Http.schemaReply_shows (Http.send_iff.mp sent).1 shows_
  obtain rfl := Node.write?_eq_some written
  have fine := plainly node found
  obtain ⟨text, printed, _⟩ := render?_schema fine
  refine ⟨text, by rw [Value.sent_eq _ fine.finite fine.whole, printed], ?_⟩
  change Tool.answer (Tool.schemaText method path) (s.schema id method path).1 = _
  rw [found]
  simp [Tool.answer, Tool.schemaText, written, printed]

theorem agree_check (id method path text : String) :
    let answered := ((Errand.check id method path text).reply s).bind Http.Service.send
    let said := ((Errand.check id method path text).call.run s).1
    ((∃ o, answered = .ok (.outcome o)) ↔ ∃ told, said = .ok told) ∧
      ∀ o, answered = .ok (.outcome o) → ∃ told, said = .ok told ∧ Tool.Tells o told := by
  intro answered said
  have answered_eq : answered =
      (Http.reply (fun o => .ok (.outcome o)) (s.check id method path text.toList).1).bind
        Http.Service.send := rfl
  have said_eq : said = Tool.answer (fun o => .ok (Tool.report text.toList o))
      (s.check id method path text.toList).1 := rfl
  simp only [answered_eq, said_eq, Http.send_iff]
  cases result : (s.check id method path text.toList).1 with
  | ok o =>
    obtain ⟨diagnosed, told⟩ := plain.check result
    refine ⟨iff_of_true ⟨o, rfl, Http.outcome_whole diagnosed told⟩ ⟨_, rfl⟩, ?_⟩
    rintro _ ⟨⟨⟩, _⟩
    exact ⟨_, rfl, Tool.report_tells text.toList o⟩
  | error e => cases e <;> simp [Http.reply, Tool.answer]

theorem agree (e : Errand) : Agree e ((e.reply s).bind Http.Service.send) (e.call.run s).1 where
  unknown := (refusals_agree s e).1
  unloadable := (refusals_agree s e).2
  schema id method path same names := by
    subst same
    exact agree_schema plain id method path names
  checked id method path text same := by
    subst same
    exact agree_check plain id method path text

end

end Errand

namespace Store

/-- A check fails because the document is unknown, and then changes nothing, or because reading a schema ends
with an error. -/
theorem check_failed {s : Store} {id method path : String} {text : List Char} {fault : StoreError}
    (failed : (s.check id method path text).1 = .error fault) :
    (s.check id method path text).2 = s ∨ ∃ e, fault = .rejected e := by
  unfold Store.check at failed ⊢
  split at failed
  · exact .inl rfl
  · rename_i entry _
    cases outcome : (Spec.Resolver.check s.limits.room method path text entry.resolver).1 with
    | ok o => exact nomatch (congrArg (Except.mapError _) outcome).symm.trans failed
    | error e =>
      exact .inr ⟨e, (Except.error.inj ((congrArg (Except.mapError _) outcome).symm.trans failed)).symm⟩

/-- A store has at the most looked up the schema of an operation since. -/
def LooksUp (s t : Store) : Prop := t = s ∨ ∃ id method path, t = (s.schema id method path).2

/-- That does not show in its documents, nor in what it replies from then on. -/
theorem Sound.lookedUp {s t : Store} (sound : s.Sound) (since : s.LooksUp t) :
    Alike t s ∧ ∀ commands, t.history commands = s.history commands := by
  rcases since with rfl | ⟨id, method, path, rfl⟩
  · exact ⟨.refl t, fun _ => rfl⟩
  · exact ⟨s.schema_alike id method path, fun commands =>
      (sound.schema id method path).history_eq sound (s.schema_bare id method path) commands⟩

end Store

namespace Http

end Http

/-- The service after requests. -/
def Http.Service.after (service : Service) (requests : List Request) : Service :=
  requests.foldl (fun service r => (service.handle r).2) service

/-- A store after calls of tools. -/
def Tool.after (s : Store) (calls : List Call) : Store :=
  calls.foldl (fun s call => (call.run s).2) s

/-- Whether the service sends another schema than the tool prints. -/
def part (answered : Http.Reply) (said : Except Tool.Refusal String) : Bool :=
  match answered, said with
  | .ok (.requestSchema id method path schema), .ok told =>
    id == "00000001" && method == Spec.upperCase "post" && path == "/notes" &&
      render? 0 schema.sent != some told.toList
  | _, _ => false

end PayloadCheck
