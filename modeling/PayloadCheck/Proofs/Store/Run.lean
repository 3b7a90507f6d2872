import PayloadCheck.Proofs.Spec.Legible
import PayloadCheck.Store

namespace PayloadCheck

open Json Schema

namespace Store

/-- What a store can be asked to do. -/
inductive Command
  | load (text : List Char)
  | list
  | document (id : String)
  | operations (id : String)
  | remove (id : String)
  | schema (id method path : String)
  | check (id method path : String) (text : List Char)
  | checkAlone (text : List Char) (schema : Option Value)

inductive Reply
  | loaded (r : Except StoreError LoadReport)
  | listed (r : Except StoreError (List Summary))
  | document (r : Except StoreError Value)
  | operations (r : Except StoreError (List Spec.Operation))
  | removed (r : Except StoreError Unit)
  | schema (r : Except StoreError (Option Node))
  | checked (r : Except StoreError Outcome)

/-- Carries out a command. A text that is checked on its own needs no document. -/
def perform (s : Store) : Command → Reply × Store
  | .load text =>
    let (r, s) := s.load text
    (.loaded r, s)
  | .list => (.listed s.list, s)
  | .document id => (.document (s.document id), s)
  | .operations id => (.operations (s.operations id), s)
  | .remove id =>
    let (r, s) := s.remove id
    (.removed r, s)
  | .schema id method path =>
    let (r, s) := s.schema id method path
    (.schema r, s)
  | .check id method path text =>
    let (r, s) := s.check id method path text
    (.checked r, s)
  | .checkAlone text schema =>
    (.checked ((run text { schema := schema, room := s.limits.room }).mapError .rejected), s)

/-- The store after commands. -/
def after (s : Store) (commands : List Command) : Store :=
  commands.foldl (fun s command => (s.perform command).2) s

end Store

/-- What an entry remembers of operations, and its list of them, are what its document gives. -/
structure Entry.Sound (room : Nat) (entry : Entry) : Prop where
  bodies : entry.resolver.BodiesSound room
  listed : Spec.Resolver.trySummaries entry.resolver.document room
    (Spec.declarations entry.resolver.document) = .ok entry.operations

/-- An entry is made of a document unless listing its operations ends with an error, and then remembers
nothing but what the document gives. -/
theorem Entry.ofDocument_ok {room : Nat} {document : Value} {entry : Entry}
    (made : ofDocument room document = .ok entry) :
    entry.resolver.document = document ∧ entry.Sound room ∧ entry.resolver.Sound room := by
  have answers := Spec.Resolver.operations_answers document room (.ofDocument document) rfl
    (Spec.Resolver.ofDocument_sound room document)
  unfold ofDocument at made
  split at made
  · rename_i operations resolver ran
    rw [ran] at answers
    obtain ⟨listed, same, sound⟩ := answers
    cases made
    dsimp only at listed same sound
    exact ⟨same, ⟨sound.bodies, by rw [same, ← listed]⟩, sound⟩
  · exact nomatch made

theorem Entry.ofDocument_cases (room : Nat) (document : Value) :
    Spec.Listable room document ∧ (∃ entry, ofDocument room document = .ok entry) ∨
      ¬ Spec.Listable room document ∧ ofDocument room document = .error Node.strayName := by
  obtain ⟨answers, _⟩ := Spec.Resolver.operations_answers document room (.ofDocument document) rfl
    (Spec.Resolver.ofDocument_sound room document)
  have cases_ := Spec.listed_cases room document
  rw [← answers] at cases_
  unfold ofDocument
  generalize Spec.Resolver.operations room (.ofDocument document) = ran at cases_ ⊢
  obtain ⟨result, after⟩ := ran
  rcases cases_ with ⟨listable, listed, rfl⟩ | ⟨stray, rfl⟩
  · exact .inl ⟨listable, _, rfl⟩
  · exact .inr ⟨stray, rfl⟩

theorem Entry.Sound.operations_eq {room : Nat} {entry : Entry} (sound : entry.Sound room) :
    entry.operations = Spec.operations room entry.resolver.document :=
  Spec.Resolver.trySummaries_ok sound.listed

/-- What has been remembered since may replace what is remembered in an entry. -/
theorem Entry.Sound.remember {room : Nat} {entry : Entry} (sound : entry.Sound room)
    {r : Spec.Resolver} (same : r.document = entry.resolver.document)
    (remembered : r.BodiesSound room) : Entry.Sound room { entry with resolver := r } :=
  ⟨remembered, by rw [same, sound.listed]⟩

namespace Store

/-- No command touches the limits, or the ids to come. -/
theorem perform_frame (s : Store) (command : Command) :
    (s.perform command).2.limits = s.limits ∧ (s.perform command).2.ids = s.ids := by
  cases command with
  | load text =>
    simp only [perform, Store.load]
    split
    · exact ⟨rfl, rfl⟩
    · split <;> exact ⟨rfl, rfl⟩
  | remove id =>
    simp only [perform, Store.remove]
    split <;> exact ⟨rfl, rfl⟩
  | schema id method path =>
    simp only [perform, Store.schema]
    split <;> exact ⟨rfl, rfl⟩
  | check id method path text =>
    simp only [perform, Store.check]
    split <;> exact ⟨rfl, rfl⟩
  | _ => exact ⟨rfl, rfl⟩

theorem after_frame (s : Store) (commands : List Command) :
    (s.after commands).limits = s.limits ∧ (s.after commands).ids = s.ids := by
  induction commands generalizing s with
  | nil => exact ⟨rfl, rfl⟩
  | cons command rest ih =>
    obtain ⟨limits, ids⟩ := ih (s.perform command).2
    obtain ⟨limits', ids'⟩ := s.perform_frame command
    exact ⟨limits.trans limits', ids.trans ids'⟩

/-- Every entry remembers nothing of operations but what its document gives. -/
def Sound (s : Store) : Prop := ∀ stored ∈ s.entries, stored.2.Sound s.limits.room

theorem empty_sound (limits : Document.Limits) (ids : Nat → String) : (empty limits ids).Sound :=
  List.forall_mem_nil _

theorem load_error {s : Store} {text : List Char} {fault : Document.Fault}
    (refused : Document.load s.limits text = .error fault) :
    s.load text = (.error (.ofFault fault), s) := by
  unfold Store.load
  rw [refused]

theorem load_rejected {s : Store} {text : List Char} {document : Value}
    (loaded : Document.load s.limits text = .ok document)
    (unlisted : ¬ Spec.Listable s.limits.room document) :
    s.load text = (.error (.rejected Node.strayName), s) := by
  rcases Entry.ofDocument_cases s.limits.room document with ⟨listable, _⟩ | ⟨_, failed⟩
  · exact absurd listable unlisted
  · unfold Store.load
    rw [loaded]
    dsimp only
    rw [failed]

theorem load_ok {s : Store} {text : List Char} {document : Value} {entry : Entry}
    (loaded : Document.load s.limits text = .ok document)
    (made : Entry.ofDocument s.limits.room document = .ok entry) :
    s.load text =
      ((entry.summary (s.ids s.issued)).map (⟨·, (entry.operations.filter (·.hasSchema)).length⟩),
        { s.put (s.ids s.issued) entry with issued := s.issued + 1 }) := by
  unfold Store.load
  rw [loaded]
  dsimp only
  rw [made]

/-- The ways a load goes: there is no document, or there is one whose operations cannot be listed, or there
is one that is stored. -/
theorem load_cases (s : Store) (text : List Char) :
    (∃ fault, Document.load s.limits text = .error fault) ∨
      ∃ document, Document.load s.limits text = .ok document ∧
        (¬ Spec.Listable s.limits.room document ∨ Spec.Listable s.limits.room document ∧
          ∃ entry, Entry.ofDocument s.limits.room document = .ok entry) := by
  cases Document.load s.limits text with
  | error fault => exact .inl ⟨fault, rfl⟩
  | ok document =>
    refine .inr ⟨document, rfl, ?_⟩
    rcases Entry.ofDocument_cases s.limits.room document with made | ⟨unlisted, _⟩
    · exact .inr made
    · exact .inl unlisted

section

variable {s : Store} (sound : s.Sound)
include sound

theorem Sound.entry {id : String} {entry : Entry} (found : s.find? id = some entry) :
    entry.Sound s.limits.room :=
  sound _ (mem_of_lookup? found)

theorem Sound.put (id : String) {entry : Entry} (fresh : entry.Sound s.limits.room) :
    (s.put id entry).Sound := by
  intro stored member
  rcases mem_of_mem_assign member with rfl | old
  · exact fresh
  · exact sound stored old

theorem Sound.load (text : List Char) : (s.load text).2.Sound := by
  rcases s.load_cases text with ⟨fault, refused⟩ | ⟨document, loaded, unlisted | ⟨_, entry, made⟩⟩
  · rw [load_error refused]
    exact sound
  · rw [load_rejected loaded unlisted]
    exact sound
  · rw [load_ok loaded made]
    exact sound.put _ (Entry.ofDocument_ok made).2.1

theorem Sound.remove (id : String) : (s.remove id).2.Sound := by
  unfold Store.remove
  cases s.find? id with
  | none => exact sound
  | some entry => exact fun stored member => sound stored (List.mem_of_mem_filter member)

theorem Sound.schema (id method path : String) : (s.schema id method path).2.Sound := by
  unfold Store.schema get
  cases found : s.find? id with
  | none => exact sound
  | some entry =>
    have fine := sound.entry found
    exact sound.put id (fine.remember rfl (Spec.Memo.remembered_sound fine.bodies _))

theorem Sound.check (id method path : String) (text : List Char) :
    (s.check id method path text).2.Sound := by
  unfold Store.check get
  cases found : s.find? id with
  | none => exact sound
  | some entry =>
    have fine := sound.entry found
    obtain ⟨same, remembered⟩ := Spec.Resolver.check_keeps fine.bodies method path text
    exact sound.put id (fine.remember same remembered)

theorem Sound.perform (command : Command) : (s.perform command).2.Sound := by
  cases command with
  | load text => exact sound.load text
  | remove id => exact sound.remove id
  | schema id method path => exact sound.schema id method path
  | check id method path text => exact sound.check id method path text
  | _ => exact sound

end

theorem Sound.after {s : Store} (sound : s.Sound) (commands : List Command) :
    (s.after commands).Sound := by
  induction commands generalizing s with
  | nil => exact sound
  | cons command rest ih => exact ih (sound.perform command)

end Store

end PayloadCheck
