import PayloadCheck.Proofs.Store.History

namespace PayloadCheck

open Json Schema

/-- What an entry of a document has before anything is remembered: the operations of the document. -/
def Entry.fresh (room : Nat) (document : Value) : Entry :=
  ⟨.ofDocument document, Spec.operations room document⟩

/-- An entry tells of its document what any entry does that remembers nothing. -/
theorem Entry.Sound.summary_eq {room : Nat} {entry : Entry} (sound : entry.Sound room) (id : String) :
    entry.summary id = (fresh room entry.resolver.document).summary id := by
  unfold summary fresh
  rw [sound.operations_eq]
  rfl

namespace Store

/-- The documents of a store with their ids, in their order. -/
def contents (s : Store) : List (String × Value) :=
  s.entries.map fun stored => (stored.1, stored.2.resolver.document)

theorem document_eq (s : Store) (id : String) :
    s.document id =
      match lookup? id s.contents with
      | some document => .ok document
      | none => .error (.unknownId id) := by
  unfold document get find? contents
  rw [lookup?_map fun entry : Entry => entry.resolver.document]
  cases lookup? id s.entries <;> rfl

theorem document_eq_ok {s : Store} {id : String} {document : Value} :
    s.document id = .ok document ↔ lookup? id s.contents = some document := by
  rw [document_eq]
  cases lookup? id s.contents <;> simp

theorem contents_put (s : Store) (id : String) (entry : Entry) :
    (s.put id entry).contents = assign id entry.resolver.document s.contents :=
  map_assign (fun entry : Entry => entry.resolver.document) id entry s.entries

/-- A load that stores a document reports on it as its fresh entry does. -/
theorem load_stored {s : Store} {text : List Char} {document : Value} {entry : Entry}
    (loaded : Document.load s.limits text = .ok document)
    (made : Entry.ofDocument s.limits.room document = .ok entry) :
    (s.load text).1 = ((Entry.fresh s.limits.room document).summary (s.ids s.issued)).map
        (⟨·, ((Spec.operations s.limits.room document).filter (·.hasSchema)).length⟩) ∧
      (s.load text).2.contents = assign (s.ids s.issued) document s.contents ∧
      (s.load text).2.issued = s.issued + 1 := by
  obtain ⟨same, sound, _⟩ := Entry.ofDocument_ok made
  have put := contents_put s (s.ids s.issued) entry
  rw [load_ok loaded made]
  refine ⟨?_, ?_, rfl⟩
  · rw [sound.summary_eq, sound.operations_eq, same]
  · rw [← same]
    exact put

theorem Sound.list_eq {s : Store} (sound : s.Sound) :
    s.list = summaries (s.contents.map fun held => (held.1, Entry.fresh s.limits.room held.2)) := by
  have each : ∀ entries : List (String × Entry), (∀ stored ∈ entries, stored.2.Sound s.limits.room) →
      summaries entries = summaries (entries.map fun stored =>
        (stored.1, Entry.fresh s.limits.room stored.2.resolver.document)) := by
    intro entries fine
    induction entries with
    | nil => rfl
    | cons stored rest ih =>
      obtain ⟨id, entry⟩ := stored
      rw [List.map_cons, summaries, summaries, (fine _ List.mem_cons_self).summary_eq,
        ih fun stored among => fine stored (List.mem_cons_of_mem _ among)]
  rw [list, each s.entries sound, contents, List.map_map]
  rfl

theorem Sound.operations_eq {s : Store} (sound : s.Sound) (id : String) :
    s.operations id = (s.document id).map (Spec.operations s.limits.room) := by
  unfold operations document get
  cases found : s.find? id with
  | none => rfl
  | some entry => exact congrArg Except.ok (sound.entry found).operations_eq

theorem remove_eq (s : Store) (id : String) : (s.remove id).1 = (s.document id).map fun _ => () := by
  unfold remove document get
  cases s.find? id <;> rfl

/-- The id that a command is about. -/
def Command.id? : Command → Option String
  | .document id | .operations id | .remove id | .schema id _ _ | .check id _ _ _ => some id
  | .load _ | .list | .checkAlone _ _ => none

/-- Whether a command brings a new document. -/
def Command.isLoad : Command → Bool
  | .load _ => true
  | _ => false

/-- Where a payload is checked against an operation, nothing wrong is remembered of the document, and there is
room to read whatever its tables hold. -/
def Settled (s : Store) : Command → Prop
  | .check id method path text =>
    s.Unspoiled id ∧ (Command.check id method path text).LeavesRoom s id
  | _ => True

section

variable {s t : Store} (soundS : s.Sound) (soundT : t.Sound) (limits : s.limits = t.limits)
include soundS soundT limits

/-- Two stores with the same document under an id answer alike what is asked about it. -/
theorem Sound.about_eq {id : String} (same : s.document id = t.document id) {command : Command}
    (about : command.id? = some id) (settledS : s.Settled command) (settledT : t.Settled command) :
    (s.perform command).1 = (t.perform command).1 := by
  cases command with
  | document other =>
    cases about
    exact congrArg Reply.document same
  | operations other =>
    cases about
    have told : s.operations id = t.operations id := by
      rw [soundS.operations_eq, soundT.operations_eq, same, limits]
    exact congrArg Reply.operations told
  | remove other =>
    cases about
    have removed : (s.remove id).1 = (t.remove id).1 := by rw [remove_eq, remove_eq, same]
    exact congrArg Reply.removed removed
  | schema other method path =>
    cases about
    have found : (s.schema id method path).1 = (t.schema id method path).1 := by
      rw [soundS.schema_eq, soundT.schema_eq, same, limits]
    exact congrArg Reply.schema found
  | check other method path text =>
    cases about
    have outcome : (s.check id method path text).1 = (t.check id method path text).1 := by
      rw [settledS.1.check_eq method path settledS.2, settledT.1.check_eq method path settledT.2, same,
        limits]
    exact congrArg Reply.checked outcome
  | _ => exact nomatch about

/-- Two stores with the same contents answer alike. -/
theorem Sound.reply_eq (same : s.contents = t.contents) {command : Command}
    (other : command.isLoad = false) (settledS : s.Settled command) (settledT : t.Settled command) :
    (s.perform command).1 = (t.perform command).1 := by
  cases about : command.id? with
  | some id =>
    have documents : s.document id = t.document id := by rw [document_eq, document_eq, same]
    exact soundS.about_eq soundT limits documents about settledS settledT
  | none =>
    cases command with
    | load text => exact nomatch other
    | list =>
      have listed : s.list = t.list := by rw [soundS.list_eq, soundT.list_eq, same, limits]
      exact congrArg Reply.listed listed
    | checkAlone text schema =>
      unfold Store.perform
      rw [limits]
    | _ => exact nomatch about

end

end Store

end PayloadCheck
