import Mathlib.Control.Monad.Basic
import PayloadCheck.Http.Service
import PayloadCheck.Proofs.Http.Record
import PayloadCheck.Proofs.Store.Atomicity
import PayloadCheck.Tool.Call

namespace PayloadCheck

open Json Schema

/-- What a loader, a store, a service or a tool does with a text: it raises something exactly where that
leaks, and comes to one of its promised outcomes exactly where nothing does. -/
def ContainedUnless {ε : Type} (leaks : ε → Prop) (promised : Prop) (raises : ε → Prop) : Prop :=
  (∀ e, raises e ↔ leaks e) ∧ (promised ↔ ¬ ∃ e, leaks e)

theorem containedUnless_of {ε : Type} {leaks raises : ε → Prop} {promised : Prop}
    (exactly : ∀ e, raises e ↔ leaks e) (covered : promised ∨ ∃ e, raises e)
    (apart : promised → ∀ e, ¬ raises e) : ContainedUnless leaks promised raises := by
  refine ⟨exactly, ?_⟩
  constructor
  · rintro kept ⟨e, leaked⟩
    exact apart kept e ((exactly e).mpr leaked)
  · intro tight
    rcases covered with kept | ⟨e, raised⟩
    · exact kept
    · exact absurd ⟨e, (exactly e).mp raised⟩ tight

theorem Document.load_contained (limits : Limits) (text : List Char) :
    ContainedUnless (Leaks limits text)
      ((∃ document, load limits text = .ok document ∧ IsDocument document) ∨
        ∃ fault, load limits text = .error fault ∧ (fault.isUnsafe = true ∨ fault.IsUnparsable))
      (fun fault => load limits text = .error (.badValue fault)) := by
  refine containedUnless_of (fun _ => load_badValue_iff) ?_ ?_
  · cases loaded : load limits text with
    | ok document => exact Or.inl (Or.inl ⟨document, rfl, (load_ok loaded).1⟩)
    | error fault =>
      rcases fault.cases with unsafe_ | unparsable | ⟨value, rfl⟩
      · exact Or.inl (Or.inr ⟨fault, rfl, Or.inl unsafe_⟩)
      · exact Or.inl (Or.inr ⟨fault, rfl, Or.inr unparsable⟩)
      · exact Or.inr ⟨value, rfl⟩
  · rintro (⟨document, loaded, _⟩ | ⟨fault, refused, kind⟩) value raised
    · exact nomatch loaded.symm.trans raised
    · cases refused.symm.trans raised
      rcases kind with kind | kind <;> exact nomatch kind

/-- What a load may raise in place of the reasons why there is no document. -/
inductive Leak
  | badValue (fault : Yaml.ValueFault)
  | rejected (e : InputError)

namespace Leak

def error : Leak → StoreError
  | .badValue fault => .badValue fault
  | .rejected e => .rejected e

def failure : Leak → Http.Failure
  | .badValue fault => .badValue fault
  | .rejected e => .rejected e

def refusal : Leak → Tool.Refusal
  | .badValue fault => .badValue fault
  | .rejected e => .rejected e

theorem error_inj {leak other : Leak} : leak.error = other.error ↔ leak = other := by
  cases leak <;> cases other <;> simp [error]

theorem refusal_inj {leak other : Leak} : leak.refusal = other.refusal ↔ leak = other := by
  cases leak <;> cases other <;> simp [refusal]

end Leak

/-- A text leaks where it is loaded into a store: the loader does, or there is a document with a schema that
has a name which is no text, or one that cannot be reported on. -/
inductive Store.Leaks (s : Store) (text : List Char) : Leak → Prop
  | unread {fault : Yaml.ValueFault} : Document.Leaks s.limits text fault → s.Leaks text (.badValue fault)
  | unlisted {document : Value} :
      Document.load s.limits text = .ok document → ¬ Spec.Listable s.limits.room document →
      s.Leaks text (.rejected Node.strayName)
  | untold {document : Value} :
      Document.load s.limits text = .ok document → Document.isJson text = false →
      Spec.Listable s.limits.room document → Untellable document → s.Leaks text (.badValue .tooLongInteger)

theorem StoreError.ofFault_cases (fault : Document.Fault) :
    (∃ messages, StoreError.ofFault fault = .unloadable messages ∧ ∀ value, fault ≠ .badValue value) ∨
      ∃ value, fault = .badValue value ∧ StoreError.ofFault fault = .badValue value := by
  unfold StoreError.ofFault
  split
  · exact Or.inr ⟨_, rfl, rfl⟩
  · rename_i other
    split
    · exact Or.inl ⟨_, rfl, other⟩
    · split <;> exact Or.inl ⟨_, rfl, other⟩

/-- What a load comes to: a report, the reasons why there is no document, or the one thing that leaks. -/
theorem Store.load_ends (s : Store) (text : List Char) :
    ((∃ report, (s.load text).1 = .ok report) ∨ ∃ messages, (s.load text).1 = .error (.unloadable messages)) ∧
        (∀ leak, ¬ s.Leaks text leak) ∨
      ∃ leak, (s.load text).1 = .error leak.error ∧ ∀ other, s.Leaks text other ↔ other = leak := by
  rcases s.load_cases text with ⟨fault, refused⟩ | ⟨document, loaded, unlisted | ⟨listable, _⟩⟩
  · rcases StoreError.ofFault_cases fault with ⟨messages, kept, other⟩ | ⟨value, rfl, passed⟩
    · refine Or.inl ⟨Or.inr ⟨messages, by rw [load_error refused, kept]⟩, ?_⟩
      rintro _ (⟨leaked⟩ | ⟨found, _⟩ | ⟨found, _⟩)
      · exact other _ (Except.error.inj (refused.symm.trans (Document.load_badValue_iff.mpr leaked)))
      · exact nomatch refused.symm.trans found
      · exact nomatch refused.symm.trans found
    · refine Or.inr ⟨.badValue value, by rw [load_error refused, passed]; rfl, fun other => ⟨?_, ?_⟩⟩
      · rintro (⟨leaked⟩ | ⟨found, _⟩ | ⟨found, _⟩)
        · cases refused.symm.trans (Document.load_badValue_iff.mpr leaked)
          rfl
        · exact nomatch refused.symm.trans found
        · exact nomatch refused.symm.trans found
      · rintro rfl
        exact .unread (Document.load_badValue_iff.mp refused)
  · refine Or.inr ⟨.rejected Node.strayName, by rw [load_rejected loaded unlisted]; rfl,
      fun other => ⟨?_, ?_⟩⟩
    · rintro (⟨leaked⟩ | ⟨found, stray⟩ | ⟨found, _, listable, _⟩)
      · exact nomatch loaded.symm.trans (Document.load_badValue_iff.mpr leaked)
      · rfl
      · cases loaded.symm.trans found
        exact absurd listable unlisted
    · rintro rfl
      exact .unlisted loaded unlisted
  · rcases load_told loaded listable with ⟨untellable, failed⟩ | ⟨tellable, report, told⟩
    · have yaml : Document.isJson text = false := by
        by_contra json
        exact Document.load_json_short (by simpa using json) loaded untellable.holdsLong
      refine Or.inr ⟨.badValue .tooLongInteger, failed, fun other => ⟨?_, ?_⟩⟩
      · rintro (⟨leaked⟩ | ⟨found, unlisted⟩ | _)
        · exact nomatch loaded.symm.trans (Document.load_badValue_iff.mpr leaked)
        · cases loaded.symm.trans found
          exact absurd listable unlisted
        · rfl
      · rintro rfl
        exact .untold loaded yaml listable untellable
    · refine Or.inl ⟨Or.inl ⟨report, told⟩, ?_⟩
      rintro _ (⟨leaked⟩ | ⟨found, unlisted⟩ | ⟨found, _, _, untellable⟩)
      · exact nomatch loaded.symm.trans (Document.load_badValue_iff.mpr leaked)
      · cases loaded.symm.trans found
        exact absurd listable unlisted
      · cases loaded.symm.trans found
        exact absurd untellable tellable

/-- Whatever is done with what a load comes to, it is enough that it keeps its promise where the load
keeps its own, and that it passes on what the load raises. -/
theorem Store.contained_of {s : Store} {text : List Char} {promised : Prop} {raises : Leak → Prop}
    (reports : ∀ report, (s.load text).1 = .ok report → promised ∧ ∀ leak, ¬ raises leak)
    (refuses : ∀ messages, (s.load text).1 = .error (.unloadable messages) →
      promised ∧ ∀ leak, ¬ raises leak)
    (passes : ∀ leak, (s.load text).1 = .error leak.error →
      ¬ promised ∧ ∀ other, raises other ↔ other = leak) :
    ContainedUnless (s.Leaks text) promised raises := by
  have kept_of (kept : promised ∧ ∀ leak, ¬ raises leak) (tight : ∀ leak, ¬ s.Leaks text leak) :
      ContainedUnless (s.Leaks text) promised raises :=
    containedUnless_of (fun leak => iff_of_false (kept.2 leak) (tight leak)) (Or.inl kept.1)
      fun _ => kept.2
  rcases s.load_ends text with ⟨⟨report, told⟩ | ⟨messages, refused⟩, tight⟩ | ⟨leak, raised, only⟩
  · exact kept_of (reports report told) tight
  · exact kept_of (refuses messages refused) tight
  · obtain ⟨broken, same⟩ := passes leak raised
    exact containedUnless_of (fun other => (same other).trans (only other).symm)
      (Or.inr ⟨leak, (same leak).mpr rfl⟩) fun kept => absurd kept broken

theorem Store.load_contained (s : Store) (text : List Char) :
    ContainedUnless (s.Leaks text)
      ((∃ report, (s.load text).1 = .ok report) ∨
        ∃ messages, (s.load text).1 = .error (.unloadable messages))
      (fun leak => (s.load text).1 = .error leak.error) := by
  apply contained_of
  · intro report told
    simp [told]
  · intro messages refused
    refine ⟨Or.inr ⟨messages, refused⟩, fun leak raised => ?_⟩
    cases leak <;> exact nomatch refused.symm.trans raised
  · intro leak raised
    constructor
    · cases leak <;> simp [raised, Leak.error]
    · simp [raised, Leak.error_inj, eq_comm]

/-- A request brings a text that is to be loaded. -/
structure Http.Request.Loads (r : Request) (text : String) : Prop where
  route : Route.of r.method (percentDecode r.path) = .action (.onStore .load)
  record : (r.content.toOption.bind fun content =>
    (content.record (singleText "spec_text")).toOption) = some text

theorem Http.Service.handle_load {service : Service} {s : Store} {r : Request} {text : String}
    (holds : service.store = some s) (fits : r.isTooLarge service.bodyLimit = false)
    (loads : r.Loads text) :
    (service.handle r).1 =
      (reply (fun report => .ok (.loaded report)) (s.load text.toList).1).bind send := by
  obtain ⟨content, read, taken⟩ := record_eq_ok loads.record
  simp [handle, dispatch, fits, loads.route, read, taken, Action.readsBody, holds, Action.run,
    StoreAction.run]

/-- The texts of a summary. -/
def Summary.texts (summary : Summary) : List String :=
  summary.id :: [summary.title, summary.version, summary.generation].filterMap fun text => text

theorem Http.isWhole_textValue (text : Option String) :
    (textValue text).isWhole = text.all Text.isWhole := by
  cases text <;> rfl

/-- The report on a document is sent if its texts are made of characters alone. -/
theorem Http.loaded_whole (report : LoadReport) :
    (Answer.loaded report).body?.all (·.isWhole) = report.summary.texts.all Text.isWhole := by
  have names : ["spec_id", "title", "version", "openapi_version", "operations",
      "operations_with_body"].all Text.isWhole = true := by decide
  obtain ⟨⟨id, title, version, generation, operations⟩, withBody⟩ := report
  cases title <;> cases version <;> cases generation <;>
    simp_all [Answer.body?, summaryMembers, Value.isWhole, Value.haveWhole, isWhole_textValue, Summary.texts]

/-- The reasons why there is no document are sent if they are made of characters alone. -/
theorem Http.unloadable_whole (messages : List String) :
    (Answer.unloadable messages).body?.all (·.isWhole) = messages.all Text.isWhole := by
  have names : ["detail", "message", "errors", "Invalid specification document"].all Text.isWhole = true := by
    decide
  have each : Value.areWhole (messages.map .str) = messages.all Text.isWhole := by
    induction messages with
    | nil => rfl
    | cons message rest ih => rw [List.map_cons, Value.areWhole, ih, List.all_cons, Value.isWhole]
  simp_all [Answer.body?, detail, Value.isWhole, Value.haveWhole]

/-- A text leaks where it is posted: the store does, or what there is to answer holds a surrogate that is not
part of a pair. -/
inductive Http.Leaks (s : Store) (text : List Char) : Failure → Prop
  | passed {leak : Leak} : s.Leaks text leak → Leaks s text leak.failure
  | report {report : LoadReport} :
      (s.load text).1 = .ok report → report.summary.texts.all Text.isWhole = false → Leaks s text .notWhole
  | reasons {messages : List String} :
      (s.load text).1 = .error (.unloadable messages) → messages.all Text.isWhole = false →
      Leaks s text .notWhole

/-- An answer that is sent only where it is whole leaks exactly where it is not. -/
theorem Http.sent_contained {leaks : Failure → Prop} {a : Answer}
    (promised : a.status = 201 ∨ a.status = 422)
    (only : ∀ failure, leaks failure ↔ failure = .notWhole ∧ a.body?.all (·.isWhole) = false) :
    ContainedUnless leaks
      (∃ answer, Service.send a = .ok answer ∧ (answer.status = 201 ∨ answer.status = 422))
      (fun failure => Service.send a = .error failure) := by
  cases whole : a.body?.all (·.isWhole) with
  | true =>
    have sent : Service.send a = .ok a := if_pos whole
    exact containedUnless_of (fun failure => by simp [sent, only, whole]) (.inl ⟨a, sent, promised⟩)
      (by simp [sent])
  | false =>
    have failed : Service.send a = .error .notWhole := by rw [Service.send, whole]; rfl
    exact containedUnless_of (fun failure => by simp [failed, only, whole, eq_comm]) (.inr ⟨_, failed⟩)
      (by simp [failed])

theorem Http.Service.load_contained {service : Service} {s : Store} {r : Request} {text : String}
    (holds : service.store = some s) (fits : r.isTooLarge service.bodyLimit = false)
    (loads : r.Loads text) :
    ContainedUnless (Leaks s text.toList)
      (∃ answer, (service.handle r).1 = .ok answer ∧ (answer.status = 201 ∨ answer.status = 422))
      (fun failure => (service.handle r).1 = .error failure) := by
  have handled := handle_load holds fits loads
  rcases s.load_ends text.toList with ⟨⟨report, told⟩ | ⟨messages, refused⟩, tight⟩ | ⟨leak, raised, only⟩
  · rw [handled, told]
    refine sent_contained (a := .loaded report) (.inl rfl) fun failure => ?_
    rw [loaded_whole]
    constructor
    · rintro (⟨leaked⟩ | ⟨found, split⟩ | ⟨found, _⟩)
      · exact absurd leaked (tight _)
      · cases told.symm.trans found
        exact ⟨rfl, split⟩
      · exact nomatch told.symm.trans found
    · rintro ⟨rfl, split⟩
      exact .report told split
  · rw [handled, refused]
    refine sent_contained (a := .unloadable messages) (.inr rfl) fun failure => ?_
    rw [unloadable_whole]
    constructor
    · rintro (⟨leaked⟩ | ⟨found, _⟩ | ⟨found, split⟩)
      · exact absurd leaked (tight _)
      · exact nomatch refused.symm.trans found
      · cases refused.symm.trans found
        exact ⟨rfl, split⟩
    · rintro ⟨rfl, split⟩
      exact .reasons refused split
  · have failed : (service.handle r).1 = .error leak.failure := by
      rw [handled, raised]
      cases leak <;> rfl
    refine containedUnless_of (fun failure => ?_) (Or.inr ⟨_, failed⟩) (by simp [failed])
    rw [failed, Except.error.injEq]
    constructor
    · rintro rfl
      exact .passed ((only leak).mpr rfl)
    · rintro (⟨leaked⟩ | ⟨found, _⟩ | ⟨found, _⟩)
      · rw [(only _).mp leaked]
      · cases leak <;> exact nomatch raised.symm.trans found
      · cases leak <;> exact nomatch raised.symm.trans found

theorem Tool.load_contained (s : Store) (text : String) :
    ContainedUnless (s.Leaks text.toList)
      ((∃ told, ((Call.loadDocument text).run s).1 = .ok told) ∨
        ∃ messages, ((Call.loadDocument text).run s).1 = .error (.unloadable messages))
      (fun leak => ((Call.loadDocument text).run s).1 = .error leak.refusal) := by
  have run : ((Call.loadDocument text).run s).1 =
      answer (fun report => .ok (loadText report)) (s.load text.toList).1 := rfl
  apply Store.contained_of
  · intro report told
    simp [run, told, answer]
  · intro messages refused
    have said : ((Call.loadDocument text).run s).1 = .error (.unloadable messages) := by
      rw [run, refused]
      rfl
    refine ⟨Or.inr ⟨messages, said⟩, fun leak raised => ?_⟩
    cases leak <;> exact nomatch said.symm.trans raised
  · intro leak raised
    have said : ((Call.loadDocument text).run s).1 = .error leak.refusal := by
      rw [run, raised]
      cases leak <;> rfl
    rw [said]
    constructor
    · cases leak <;> simp [Leak.refusal]
    · simp [Leak.refusal_inj, eq_comm]

/-- Whatever a text holds, the loader yields a document or refuses the text as unsafe or unparsable, the
store reports on a document or tells why there is none, the service answers that it has created
something or that it cannot process the request, and the tool says something or tells why there is no
document: in each case unless, and only unless, something leaks, which is then raised. -/
theorem load_contained_unless_leaks {s : Store} {text : String} {service : Http.Service}
    {r : Http.Request} (holds : service.store = some s)
    (fits : r.isTooLarge service.bodyLimit = false) (loads : r.Loads text) :
    ContainedUnless (Document.Leaks s.limits text.toList)
      ((∃ document, Document.load s.limits text.toList = .ok document ∧
          Document.IsDocument document) ∨
        ∃ fault, Document.load s.limits text.toList = .error fault ∧
          (fault.isUnsafe = true ∨ fault.IsUnparsable))
      (fun fault => Document.load s.limits text.toList = .error (.badValue fault)) ∧
    ContainedUnless (s.Leaks text.toList)
      ((∃ report, (s.load text.toList).1 = .ok report) ∨
        ∃ messages, (s.load text.toList).1 = .error (.unloadable messages))
      (fun leak => (s.load text.toList).1 = .error leak.error) ∧
    ContainedUnless (Http.Leaks s text.toList)
      (∃ answer, (service.handle r).1 = .ok answer ∧ (answer.status = 201 ∨ answer.status = 422))
      (fun failure => (service.handle r).1 = .error failure) ∧
    ContainedUnless (s.Leaks text.toList)
      ((∃ told, ((Tool.Call.loadDocument text).run s).1 = .ok told) ∨
        ∃ messages, ((Tool.Call.loadDocument text).run s).1 = .error (.unloadable messages))
      (fun leak => ((Tool.Call.loadDocument text).run s).1 = .error leak.refusal) :=
  ⟨Document.load_contained s.limits text.toList, s.load_contained text.toList,
    Http.Service.load_contained holds fits loads, Tool.load_contained s text⟩

/-- A text of the form of a document, but for a date that there is not. -/
def datedText : String := "info: 2024-13-45\npaths: \x7b\x7d"

/-- The request that brings it. -/
def datedPost : Http.Request where
  method := "POST"
  path := "/specs".toList
  query := []
  headers := [("content-type", "application/json".toList)]
  pieces := [Text.Utf8.encode
    "\x7b\"spec_text\": \"info: 2024-13-45\\npaths: \x7b\x7d\"\x7d".toList]

theorem load_leaks_datedText :
    let s := Store.empty {} countedId
    let service : Http.Service := ⟨Http.standardBodyLimit, some s⟩
    Document.load s.limits datedText.toList = .error (.badValue .month) ∧
      (s.load datedText.toList).1 = .error (.badValue .month) ∧
      (service.handle datedPost).1 = .error (.badValue .month) ∧
      ((Tool.Call.loadDocument datedText).run s).1 = .error (.badValue .month) := by
  intro s service
  have holds : service.store = some s := rfl
  have fits : datedPost.isTooLarge service.bodyLimit = false := by decide +kernel
  have loads : datedPost.Loads datedText := ⟨by decide +kernel, by decide +kernel⟩
  obtain ⟨loader, store, handled, called⟩ := load_contained_unless_leaks holds fits loads
  have undated : (Yaml.read s.limits.depth datedText.toList).map (fun _ => ()) =
      .error (.badValue .month) := by decide +kernel
  have read : Yaml.read s.limits.depth datedText.toList = .error (.badValue .month) := by
    cases result : Yaml.read s.limits.depth datedText.toList with
    | ok found => simp [result, Except.map] at undated
    | error failure => simpa [result, Except.map] using undated
  have unread : Document.Leaks s.limits datedText.toList .month :=
    ⟨by decide +kernel, by decide +kernel, by decide +kernel, Yaml.read_badValue_iff.mp read⟩
  have leaked : s.Leaks datedText.toList (.badValue .month) := .unread unread
  exact ⟨(loader.1 .month).mpr unread, (store.1 _).mpr leaked, (handled.1 _).mpr (.passed leaked),
    (called.1 _).mpr leaked⟩

end PayloadCheck
