import PayloadCheck.Proofs.Store.Atomicity

namespace PayloadCheck

open Json Schema

theorem Entry.summary_ok {entry : Entry} {id : String} {summary : Summary}
    (told : entry.summary id = .ok summary) :
    summary.id = id ∧ summary.operations = entry.operations.length := by
  simp only [Entry.summary] at told
  split at told
  · cases told
    exact ⟨rfl, rfl⟩
  · exact nomatch told
  · exact nomatch told
  · exact nomatch told

namespace Store

/-- The commands of a run with their replies. -/
def history (s : Store) : List Command → List (Command × Reply)
  | [] => []
  | command :: rest => (command, (s.perform command).1) :: (s.perform command).2.history rest

def failureOf {α : Type} : Except StoreError α → Option StoreError
  | .ok _ => none
  | .error e => some e

def Reply.failure? : Reply → Option StoreError
  | .loaded r => failureOf r
  | .listed r => failureOf r
  | .document r => failureOf r
  | .operations r => failureOf r
  | .removed r => failureOf r
  | .schema r => failureOf r
  | .checked r => failureOf r

/-- A document has been loaded or removed. -/
def Reply.isChange : Reply → Bool
  | .loaded (.ok _) => true
  | .removed (.ok _) => true
  | _ => false

/-- A load has ended neither with a report nor with the reasons why there is no document. -/
def Reply.isStray : Reply → Bool
  | .loaded (.error (.unloadable _)) => false
  | .loaded (.error _) => true
  | _ => false

/-- All of a store that its replies depend on is the same. -/
structure Alike (s t : Store) : Prop where
  limits : s.limits = t.limits
  ids : s.ids = t.ids
  issued : s.issued = t.issued
  contents : s.contents = t.contents

theorem Alike.refl (s : Store) : Alike s s := ⟨rfl, rfl, rfl, rfl⟩

theorem Alike.symm {s t : Store} (alike : Alike s t) : Alike t s :=
  ⟨alike.limits.symm, alike.ids.symm, alike.issued.symm, alike.contents.symm⟩

theorem Alike.trans {s t u : Store} (first : Alike s t) (second : Alike t u) : Alike s u :=
  ⟨first.limits.trans second.limits, first.ids.trans second.ids, first.issued.trans second.issued,
    first.contents.trans second.contents⟩

theorem lookup?_contents (s : Store) (id : String) :
    lookup? id s.contents = (s.find? id).map (·.resolver.document) :=
  lookup?_map (fun entry : Entry => entry.resolver.document) id s.entries

/-- An entry may be replaced by another one of the same document. -/
theorem put_alike {s : Store} {id : String} {old new : Entry} (found : s.find? id = some old)
    (same : new.resolver.document = old.resolver.document) : Alike (s.put id new) s := by
  have held : lookup? id s.contents = some new.resolver.document := by
    rw [lookup?_contents, found, same, Option.map_some]
  exact ⟨rfl, rfl, rfl, (contents_put s id new).trans (assign_of_lookup? held)⟩

theorem schema_alike (s : Store) (id method path : String) : Alike (s.schema id method path).2 s := by
  unfold Store.schema get
  cases found : s.find? id with
  | none => exact .refl s
  | some entry => exact put_alike found rfl

theorem Sound.check_alike {s : Store} (sound : s.Sound) (id method path : String)
    (text : List Char) : Alike (s.check id method path text).2 s := by
  unfold Store.check get
  cases found : s.find? id with
  | none => exact .refl s
  | some entry =>
    exact put_alike found (Spec.Resolver.check_keeps (sound.entry found).bodies method path text).1

theorem contents_remove (s : Store) (id : String) :
    (s.remove id).2.contents = without id s.contents := by
  unfold Store.remove
  cases found : s.find? id with
  | none =>
    have absent : lookup? id s.contents = none := by rw [lookup?_contents, found, Option.map_none]
    have all_kept : ∀ held ∈ s.contents, decide (held.1 ≠ id) = true := fun held among =>
      decide_eq_true (lookup?_eq_none.mp absent held among)
    exact (List.filter_eq_self.mpr all_kept).symm
  | some entry =>
    unfold without
    rw [contents, contents, List.filter_map]
    rfl

theorem remove_issued (s : Store) (id : String) : (s.remove id).2.issued = s.issued := by
  unfold Store.remove
  split <;> rfl

theorem load_reported {s : Store} {text : List Char} {report : LoadReport}
    (reported : (s.load text).1 = .ok report) :
    ∃ document entry, Document.load s.limits text = .ok document ∧
      Entry.ofDocument s.limits.room document = .ok entry ∧
      (Entry.fresh s.limits.room document).summary (s.ids s.issued) = .ok report.summary ∧
      report.withBody = ((Spec.operations s.limits.room document).filter (·.hasSchema)).length := by
  rcases s.load_cases text with ⟨_, refused⟩ | ⟨document, loaded, unlisted | ⟨_, entry, made⟩⟩
  · rw [load_error refused] at reported
    exact nomatch reported
  · rw [load_rejected loaded unlisted] at reported
    exact nomatch reported
  · rw [(load_stored loaded made).1] at reported
    cases summary : (Entry.fresh s.limits.room document).summary (s.ids s.issued) with
    | error e => simp [summary, Except.map] at reported
    | ok told =>
      rw [summary] at reported
      cases reported
      exact ⟨document, entry, loaded, made, summary, rfl⟩

/-- A load that is refused with reasons leaves the store as it is. -/
theorem load_refused {s : Store} {text : List Char} {messages : List String}
    (refused : (s.load text).1 = .error (.unloadable messages)) : (s.load text).2 = s := by
  rcases s.load_cases text with ⟨_, failed⟩ | ⟨document, loaded, unlisted | ⟨listable, _⟩⟩
  · rw [load_error failed]
  · rw [load_rejected loaded unlisted]
  · rcases load_told loaded listable with ⟨_, raised⟩ | ⟨_, report, told⟩
    · exact nomatch raised.symm.trans refused
    · exact nomatch told.symm.trans refused

end Store

/-- An entry that remembers nothing of operations. -/
def Entry.bare (entry : Entry) : Entry :=
  { entry with resolver := { entry.resolver with bodies := [] } }

theorem Entry.Sound.twins {room : Nat} {entry : Entry} (sound : entry.Sound room) :
    Spec.Resolver.Twins entry.resolver.document room entry.resolver entry.bare.resolver :=
  ⟨rfl, rfl, rfl, sound.bodies, List.forall_mem_nil _⟩

theorem Spec.Resolver.Twins.bare {document : Value} {room : Nat} {r r' : Spec.Resolver}
    (twins : Twins document room r r') (operations : List Spec.Operation) :
    (Entry.mk r operations).bare = (Entry.mk r' operations).bare := by
  simp only [Entry.bare, twins.left, twins.right, twins.named]

namespace Store

/-- A store that remembers nothing of operations. What it remembers of references shows in its replies: where
a deep payload has been checked, it may be wrong. -/
def bare (s : Store) : Store :=
  { s with entries := s.entries.map fun stored => (stored.1, stored.2.bare) }

theorem find?_bare (s : Store) (id : String) : s.bare.find? id = (s.find? id).map Entry.bare :=
  lookup?_map Entry.bare id s.entries

theorem put_bare (s : Store) (id : String) (entry : Entry) :
    (s.put id entry).bare = s.bare.put id entry.bare := by
  simp only [bare, put, map_assign Entry.bare]

theorem bare_bare (s : Store) : s.bare.bare = s.bare := by
  simp only [bare, List.map_map]
  rfl

theorem Sound.bare {s : Store} (sound : s.Sound) : s.bare.Sound := by
  intro stored among
  obtain ⟨held, member, rfl⟩ := List.mem_map.mp among
  exact ⟨List.forall_mem_nil _, (sound held member).listed⟩

/-- An entry may be replaced by one that differs in what it remembers of operations. -/
theorem put_of_bare {s : Store} {id : String} {old new : Entry} (found : s.find? id = some old)
    (same : new.bare = old.bare) : (s.put id new).bare = s.bare := by
  have held : s.bare.find? id = some new.bare := by rw [find?_bare, found, same, Option.map_some]
  rw [put_bare, put, assign_of_lookup? held]

theorem alike_of_bare {s t : Store} (same : s.bare = t.bare) : Alike s t := by
  have contents (u : Store) : u.contents = u.bare.contents := by
    simp only [Store.contents, Store.bare, List.map_map]
    rfl
  have limits : s.bare.limits = t.bare.limits := by rw [same]
  have ids : s.bare.ids = t.bare.ids := by rw [same]
  have issued : s.bare.issued = t.bare.issued := by rw [same]
  exact ⟨limits, ids, issued, by rw [contents s, contents t, same]⟩

theorem schema_bare (s : Store) (id method path : String) :
    (s.schema id method path).2.bare = s.bare := by
  unfold Store.schema get
  cases found : s.find? id with
  | none => rfl
  | some entry => exact put_of_bare found rfl

theorem remove_bare (s : Store) (id : String) : (s.remove id).2.bare = (s.bare.remove id).2.bare := by
  unfold Store.remove
  rw [find?_bare]
  cases s.find? id with
  | none => exact s.bare_bare.symm
  | some entry =>
    simp only [Option.map_some, bare, without, List.filter_map, List.map_map]
    rfl

theorem load_bare (s : Store) (text : List Char) :
    (s.load text).1 = (s.bare.load text).1 ∧ (s.load text).2.bare = (s.bare.load text).2.bare := by
  rcases s.load_cases text with ⟨_, refused⟩ | ⟨document, loaded, unlisted | ⟨_, entry, made⟩⟩
  · rw [load_error refused, load_error (s := s.bare) refused]
    exact ⟨rfl, s.bare_bare.symm⟩
  · rw [load_rejected loaded unlisted, load_rejected (s := s.bare) loaded unlisted]
    exact ⟨rfl, s.bare_bare.symm⟩
  · have told := (load_stored loaded made).1
    have told' := (load_stored (s := s.bare) loaded made).1
    refine ⟨told.trans told'.symm, ?_⟩
    have same (id : String) : (s.put id entry).bare = (s.bare.put id entry).bare := by
      rw [put_bare, put_bare, bare_bare]
    rw [load_ok loaded made, load_ok (s := s.bare) loaded made]
    exact congrArg (fun t : Store => { t with issued := s.issued + 1 }) (same _)

/-- Whether a command checks a payload against an operation of a document. -/
def Command.isCheck : Command → Bool
  | .check _ _ _ _ => true
  | _ => false

/-- A command that loads or removes nothing, and checks no payload, leaves what the store answers. -/
theorem unchanged_bare {s : Store} {command : Command} (unchecked : command.isCheck = false)
    (unchanged : (s.perform command).1.isChange = false)
    (tame : (s.perform command).1.isStray = false) : (s.perform command).2.bare = s.bare := by
  cases command with
  | load text =>
    change (Reply.loaded (s.load text).1).isChange = false at unchanged
    change (Reply.loaded (s.load text).1).isStray = false at tame
    cases result : (s.load text).1 with
    | ok report => simp [result, Reply.isChange] at unchanged
    | error e =>
      cases e with
      | unloadable messages => exact congrArg bare (load_refused result)
      | unknownId _ | badValue _ | rejected _ => simp [result, Reply.isStray] at tame
  | remove id =>
    change (Reply.removed (s.remove id).1).isChange = false at unchanged
    change (s.remove id).2.bare = s.bare
    unfold Store.remove at unchanged ⊢
    split at unchanged
    · rfl
    · exact nomatch unchanged
  | schema id method path => exact s.schema_bare id method path
  | check => exact nomatch unchecked
  | _ => rfl

section

variable {s : Store} (sound : s.Sound)
include sound

theorem Sound.check_bare (id method path : String) (text : List Char) :
    (s.check id method path text).1 = (s.bare.check id method path text).1 ∧
      (s.check id method path text).2.bare = (s.bare.check id method path text).2.bare := by
  unfold Store.check get
  rw [find?_bare]
  cases found : s.find? id with
  | none => exact ⟨rfl, s.bare_bare.symm⟩
  | some entry =>
    obtain ⟨outcome, after⟩ :=
      Spec.Resolver.check_twins method path text (sound.entry found).twins
    refine ⟨congrArg (Except.mapError StoreError.rejected) outcome, ?_⟩
    have same := after.bare entry.operations
    change (s.put id ⟨_, entry.operations⟩).bare = (s.bare.put id ⟨_, entry.operations⟩).bare
    rw [put_bare, put_bare, bare_bare]
    exact congrArg (s.bare.put id) same

/-- What a store remembers of operations shows neither in a reply nor in what else it remembers. -/
theorem Sound.perform_bare (command : Command) :
    (s.perform command).1 = (s.bare.perform command).1 ∧
      (s.perform command).2.bare = (s.bare.perform command).2.bare := by
  have documents (id : String) : s.document id = s.bare.document id := by
    rw [document_eq, document_eq, (alike_of_bare s.bare_bare).contents]
  cases command with
  | load text =>
    obtain ⟨report, after⟩ := s.load_bare text
    exact ⟨congrArg Reply.loaded report, after⟩
  | remove id =>
    have removed : (s.remove id).1 = (s.bare.remove id).1 := by rw [remove_eq, remove_eq, documents]
    exact ⟨congrArg Reply.removed removed, s.remove_bare id⟩
  | schema id method path =>
    have found : (s.schema id method path).1 = (s.bare.schema id method path).1 := by
      rw [sound.schema_eq, sound.bare.schema_eq, documents]
      rfl
    refine ⟨congrArg Reply.schema found, ?_⟩
    exact (s.schema_bare id method path).trans
      (s.bare_bare.symm.trans (s.bare.schema_bare id method path).symm)
  | check id method path text =>
    obtain ⟨outcome, after⟩ := sound.check_bare id method path text
    exact ⟨congrArg Reply.checked outcome, after⟩
  | list =>
    have listed : s.list = s.bare.list := by
      rw [sound.list_eq, sound.bare.list_eq, (alike_of_bare s.bare_bare).contents]
      rfl
    exact ⟨congrArg Reply.listed listed, s.bare_bare.symm⟩
  | document id => exact ⟨congrArg Reply.document (documents id), s.bare_bare.symm⟩
  | operations id =>
    have told : s.operations id = s.bare.operations id := by
      rw [sound.operations_eq, sound.bare.operations_eq, documents]
      rfl
    exact ⟨congrArg Reply.operations told, s.bare_bare.symm⟩
  | checkAlone text schema => exact ⟨rfl, s.bare_bare.symm⟩

/-- A command that loads or removes nothing leaves the documents of a store. -/
theorem Sound.unchanged {command : Command} (unchanged : (s.perform command).1.isChange = false)
    (tame : (s.perform command).1.isStray = false) : Alike (s.perform command).2 s := by
  cases unchecked : command.isCheck with
  | false => exact alike_of_bare (unchanged_bare unchecked unchanged tame)
  | true =>
    cases command with
    | check id method path text => exact sound.check_alike id method path text
    | _ => exact nomatch unchecked

end

/-- A command about an id is refused by name where the id is unknown, and only there. -/
theorem failure?_unknown (s : Store) {command : Command} {id : String}
    (about : command.id? = some id) :
    (s.perform command).1.failure? = some (.unknownId id) ↔ lookup? id s.contents = none := by
  rw [lookup?_contents, Option.map_eq_none_iff]
  cases found : s.find? id with
  | none =>
    have got : s.get id = .error (.unknownId id) := by rw [get, found]
    refine iff_of_true ?_ rfl
    cases command <;> cases about <;>
      simp [perform, document, operations, Store.remove, Store.schema, Store.check, got, found,
        Reply.failure?, failureOf, Except.map]
  | some entry =>
    have got : s.get id = .ok entry := by rw [get, found]
    refine iff_of_false ?_ (Option.some_ne_none _)
    have rejected {α : Type} (r : Except InputError α) :
        failureOf (r.mapError StoreError.rejected) ≠ some (.unknownId id) := by
      cases r <;> simp [failureOf, Except.mapError]
    cases command with
    | schema other method path =>
      cases about
      simp only [perform, Store.schema, got, Reply.failure?]
      exact rejected _
    | check other method path text =>
      cases about
      simp only [perform, Store.check, got, Reply.failure?]
      exact rejected _
    | _ =>
      cases about <;>
        simp [perform, document, operations, Store.remove, got, found, Reply.failure?, failureOf, Except.map]

/-- Stores that differ in what they remember of operations go on alike. -/
theorem Sound.history_eq {s t : Store} (soundS : s.Sound) (soundT : t.Sound) (same : s.bare = t.bare)
    (commands : List Command) : s.history commands = t.history commands := by
  induction commands generalizing s t with
  | nil => rfl
  | cons command rest ih =>
    obtain ⟨reply, after⟩ := soundS.perform_bare command
    obtain ⟨reply', after'⟩ := soundT.perform_bare command
    rw [← same] at reply' after'
    rw [history, history, reply.trans reply'.symm,
      ih (soundS.perform command) (soundT.perform command) (after.trans after'.symm)]

theorem remove_alike {s t : Store} (alike : Alike s t) (id : String) :
    Alike (s.remove id).2 (t.remove id).2 := by
  obtain ⟨limitsS, idsS⟩ := s.perform_frame (.remove id)
  obtain ⟨limitsT, idsT⟩ := t.perform_frame (.remove id)
  refine ⟨(limitsS.trans alike.limits).trans limitsT.symm, (idsS.trans alike.ids).trans idsT.symm, ?_, ?_⟩
  · rw [remove_issued, remove_issued, alike.issued]
  · rw [contents_remove, contents_remove, alike.contents]

theorem load_alike {s t : Store} (alike : Alike s t) (text : List Char) :
    (s.load text).1 = (t.load text).1 ∧ Alike (s.load text).2 (t.load text).2 := by
  obtain ⟨limits, ids, issued, contents⟩ := alike
  rcases s.load_cases text with ⟨_, refused⟩ | ⟨document, loaded, unlisted | ⟨_, entry, made⟩⟩
  · rw [load_error refused, load_error (limits ▸ refused)]
    exact ⟨rfl, limits, ids, issued, contents⟩
  · rw [load_rejected loaded unlisted, load_rejected (limits ▸ loaded) (limits ▸ unlisted)]
    exact ⟨rfl, limits, ids, issued, contents⟩
  · obtain ⟨limitsS, idsS⟩ := s.perform_frame (.load text)
    obtain ⟨limitsT, idsT⟩ := t.perform_frame (.load text)
    obtain ⟨told, stored, spent⟩ := load_stored loaded made
    obtain ⟨told', stored', spent'⟩ := load_stored (s := t) (limits ▸ loaded) (limits ▸ made)
    refine ⟨?_, (limitsS.trans limits).trans limitsT.symm, (idsS.trans ids).trans idsT.symm, ?_, ?_⟩
    · rw [told, told', limits, ids, issued]
    · rw [spent, spent', issued]
    · rw [stored, stored', ids, issued, contents]

theorem Alike.document {s t : Store} (alike : Alike s t) (id : String) : s.document id = t.document id := by
  rw [document_eq, document_eq, alike.contents]

theorem Command.LeavesRoom.alike {s t : Store} {id : String} {command : Command}
    (roomy : command.LeavesRoom s id) (alike : Alike s t) : command.LeavesRoom t id := by
  cases command with
  | check about method path text =>
    intro same document held
    rw [← alike.document] at held
    rw [← alike.limits]
    exact roomy same document held
  | _ => trivial

section

variable {s t : Store} (soundS : s.Sound) (soundT : t.Sound) (alike : Alike s t)
include soundS soundT alike

/-- Stores with the same contents have the same contents after a command. -/
theorem Sound.perform_alike (command : Command) :
    Alike (s.perform command).2 (t.perform command).2 := by
  cases command with
  | load text => exact (load_alike alike text).2
  | remove id => exact remove_alike alike id
  | schema id method path =>
    exact ((s.schema_alike id method path).trans alike).trans (t.schema_alike id method path).symm
  | check id method path text =>
    exact ((soundS.check_alike id method path text).trans alike).trans
      (soundT.check_alike id method path text).symm
  | _ => exact alike

/-- Stores with the same contents, of which nothing wrong is remembered, reply alike as long as every payload
leaves room. -/
theorem Sound.history_alike (unspoiledS : ∀ id, s.Unspoiled id) (unspoiledT : ∀ id, t.Unspoiled id)
    {commands : List Command} (roomy : ∀ id, s.LeavesRoom id commands) :
    s.history commands = t.history commands := by
  induction commands generalizing s t with
  | nil => rfl
  | cons command rest ih =>
    have first (id : String) : command.LeavesRoom s id := (roomy id).1
    have first' (id : String) : command.LeavesRoom t id := (first id).alike alike
    have settled {u : Store} (unspoiled : ∀ id, u.Unspoiled id)
        (room : ∀ id, command.LeavesRoom u id) : u.Settled command := by
      cases command with
      | check id method path text => exact ⟨unspoiled id, room id⟩
      | _ => trivial
    have reply : (s.perform command).1 = (t.perform command).1 := by
      cases brings : command.isLoad with
      | true =>
        cases command with
        | load text => exact congrArg Reply.loaded (load_alike alike text).1
        | _ => exact nomatch brings
      | false =>
        exact soundS.reply_eq soundT alike.limits alike.contents brings (settled unspoiledS first)
          (settled unspoiledT first')
    rw [history, history, reply, ih (soundS.perform command) (soundT.perform command)
      (soundS.perform_alike soundT alike command)
      (fun id => (unspoiledS id).perform soundS (first id))
      (fun id => (unspoiledT id).perform soundT (first' id)) fun id => (roomy id).2]

end

end Store

end PayloadCheck
