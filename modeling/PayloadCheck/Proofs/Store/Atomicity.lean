import PayloadCheck.Proofs.Document.Load
import PayloadCheck.Proofs.Store.Contents

namespace PayloadCheck

open Json Schema

/-- What a report tells of a document besides its operations: its title, its version, and the version
of its format, as far as they are there. -/
def told (document : Value) : List Value :=
  [document.dig? ["info", "title"], document.dig? ["info", "version"],
    generation document].filterMap id

/-- A document cannot be reported on: what there is to tell of it holds an integer with too many
digits. -/
def Untellable (document : Value) : Prop := ∃ v ∈ told document, v.HoldsLong

theorem untellable_iff {document : Value} :
    Untellable document ↔
      (∃ v ∈ document.dig? ["info", "title"], v.HoldsLong) ∨
        (∃ v ∈ document.dig? ["info", "version"], v.HoldsLong) ∨
          ∃ v ∈ generation document, v.HoldsLong := by
  simp only [Untellable, told, List.mem_filterMap, List.mem_cons, List.not_mem_nil, or_false, id_eq,
    Option.mem_def]
  constructor
  · rintro ⟨v, ⟨found, rfl | rfl | rfl, at_v⟩, long⟩
    · exact Or.inl ⟨v, at_v, long⟩
    · exact Or.inr (Or.inl ⟨v, at_v, long⟩)
    · exact Or.inr (Or.inr ⟨v, at_v, long⟩)
  · rintro (⟨v, at_v, long⟩ | ⟨v, at_v, long⟩ | ⟨v, at_v, long⟩)
    · exact ⟨v, ⟨_, Or.inl rfl, at_v⟩, long⟩
    · exact ⟨v, ⟨_, Or.inr (Or.inl rfl), at_v⟩, long⟩
    · exact ⟨v, ⟨_, Or.inr (Or.inr rfl), at_v⟩, long⟩

theorem Untellable.holdsLong {document : Value} (untellable : Untellable document) :
    document.HoldsLong := by
  rcases untellable_iff.mp untellable with ⟨v, found, long⟩ | ⟨v, found, long⟩ | ⟨v, found, long⟩
  · exact .of_dig? found long
  · exact .of_dig? found long
  · rcases Option.or_eq_some_iff.mp found with found | ⟨_, found⟩
    · exact .of_get? found long
    · exact .of_get? found long

theorem displayed_cases (v : Option Value) :
    (∃ w ∈ v, w.HoldsLong) ∧ displayed v = .error (.badValue .tooLongInteger) ∨
      ¬ (∃ w ∈ v, w.HoldsLong) ∧ ∃ text, displayed v = .ok text := by
  unfold displayed
  split
  · refine Or.inr ⟨?_, _, rfl⟩
    rintro ⟨w, found, _⟩
    cases found
  · refine Or.inr ⟨?_, _, rfl⟩
    rintro ⟨w, found, long⟩
    cases found
    cases long
  · rename_i w _
    have long := display?_eq_none w
    cases written : display? w with
    | none => exact Or.inl ⟨⟨w, rfl, long.mp written⟩, rfl⟩
    | some text =>
      refine Or.inr ⟨?_, _, rfl⟩
      rintro ⟨_, found, held⟩
      cases found
      rw [long.mpr held] at written
      cases written

theorem Entry.summary_cases (entry : Entry) (id : String) :
    Untellable entry.resolver.document ∧
        entry.summary id = .error (.badValue .tooLongInteger) ∨
      ¬ Untellable entry.resolver.document ∧ ∃ summary, entry.summary id = .ok summary := by
  rw [untellable_iff]
  unfold Entry.summary
  rcases displayed_cases (entry.resolver.document.dig? ["info", "title"]) with
    ⟨held, title⟩ | ⟨short, _, title⟩
  · exact Or.inl ⟨Or.inl held, by simp only [title]⟩
  rcases displayed_cases (entry.resolver.document.dig? ["info", "version"]) with
    ⟨held, version⟩ | ⟨shorter, _, version⟩
  · exact Or.inl ⟨Or.inr (Or.inl held), by simp only [title, version]⟩
  rcases displayed_cases (generation entry.resolver.document) with
    ⟨held, format⟩ | ⟨shortest, _, format⟩
  · exact Or.inl ⟨Or.inr (Or.inr held), by simp only [title, version, format]⟩
  · refine Or.inr ⟨?_, _, by simp only [title, version, format]; rfl⟩
    rintro (held | held | held)
    · exact short held
    · exact shorter held
    · exact shortest held

namespace Store

/-- What a load comes to where a document is stored. -/
theorem load_told {s : Store} {text : List Char} {document : Value}
    (loaded : Document.load s.limits text = .ok document)
    (listable : Spec.Listable s.limits.room document) :
    Untellable document ∧ (s.load text).1 = .error (.badValue .tooLongInteger) ∨
      ¬ Untellable document ∧ ∃ report, (s.load text).1 = .ok report := by
  rcases Entry.ofDocument_cases s.limits.room document with ⟨_, entry, made⟩ | ⟨unlisted, _⟩
  · rw [(load_stored loaded made).1]
    rcases (Entry.fresh s.limits.room document).summary_cases (s.ids s.issued) with
      ⟨untellable, failed⟩ | ⟨tellable, summary, reported⟩
    · exact .inl ⟨untellable, by rw [failed]; rfl⟩
    · exact .inr ⟨tellable, _, by rw [reported]; rfl⟩
  · exact absurd listable unlisted

/-- A load fails where there is no document, where the operations of the document cannot be listed, or where
the document cannot be reported on. -/
theorem load_error_iff {s : Store} {text : List Char} :
    (∃ e, (s.load text).1 = .error e) ↔
      (∃ fault, Document.load s.limits text = .error fault) ∨
        ∃ document, Document.load s.limits text = .ok document ∧
          (¬ Spec.Listable s.limits.room document ∨ Untellable document) := by
  rcases s.load_cases text with ⟨fault, refused⟩ | ⟨document, loaded, unlisted | ⟨listable, _⟩⟩
  · simp [load_error refused, refused]
  · simp [load_rejected loaded unlisted, loaded, unlisted]
  · rcases load_told loaded listable with ⟨untellable, failed⟩ | ⟨tellable, report, told⟩
    · simp [failed, loaded, untellable]
    · simp [told, loaded, listable, tellable]

/-- A listing fails as long as the store holds a document that cannot be reported on. -/
theorem Sound.list_error_iff {s : Store} (sound : s.Sound) :
    (∃ e, s.list = .error e) ↔ ∃ held ∈ s.contents, Untellable held.2 := by
  rw [sound.list_eq]
  induction s.contents with
  | nil => simp [summaries]
  | cons held rest ih =>
    obtain ⟨id, document⟩ := held
    rw [List.map_cons, summaries, List.exists_mem_cons_iff, ← ih]
    rcases (Entry.fresh s.limits.room document).summary_cases id with
      ⟨untellable, failed⟩ | ⟨tellable, summary, reported⟩
    · have held : Untellable document := untellable
      simp [failed, held]
    · have free : ¬ Untellable document := tellable
      simp only [reported, free, false_or]
      cases summaries (rest.map fun held => (held.1, Entry.fresh s.limits.room held.2)) <;> simp

/-- A store with the same entry under an id answers alike what is asked about it. -/
theorem perform_of_find? {s t : Store} {id : String} (same : s.find? id = t.find? id)
    (limits : s.limits = t.limits) {command : Command} (about : command.id? = some id) :
    (s.perform command).1 = (t.perform command).1 := by
  have get : s.get id = t.get id := by rw [Store.get, Store.get, same]
  cases command with
  | remove other =>
    cases about
    have removed : (s.remove id).1 = (t.remove id).1 := by
      unfold remove
      rw [same]
      cases t.find? id <;> rfl
    exact congrArg Reply.removed removed
  | document other =>
    cases about
    simp only [perform, Store.document, get]
  | operations other =>
    cases about
    simp only [perform, Store.operations, get]
  | schema other method path =>
    cases about
    have found : (s.schema id method path).1 = (t.schema id method path).1 := by
      unfold schema
      rw [get, limits]
      cases t.get id <;> rfl
    exact congrArg Reply.schema found
  | check other method path text =>
    cases about
    have outcome : (s.check id method path text).1 = (t.check id method path text).1 := by
      unfold check
      rw [get, limits]
      cases t.get id <;> rfl
    exact congrArg Reply.checked outcome
  | _ => cases about

/-- What is stored of a document that has just been loaded, and nothing else, is told under its id. -/
theorem load_find? {s : Store} {text : List Char} {document : Value} {entry : Entry}
    (loaded : Document.load s.limits text = .ok document)
    (made : Entry.ofDocument s.limits.room document = .ok entry) (id : String) :
    (s.load text).2.find? id = if s.ids s.issued = id then some entry else s.find? id := by
  rw [load_ok loaded made]
  exact find?_put s (s.ids s.issued) id entry

/-- What is stored of a document that has just been loaded spoils nothing. -/
theorem unspoiled_of_load {s : Store} {text : List Char} {document : Value} {entry : Entry}
    (loaded : Document.load s.limits text = .ok document)
    (made : Entry.ofDocument s.limits.room document = .ok entry) :
    (s.load text).2.Unspoiled (s.ids s.issued) := by
  intro found at_id
  rw [load_find? loaded made, if_pos rfl] at at_id
  cases at_id
  have limits : (s.load text).2.limits = s.limits := (s.perform_frame (.load text)).1
  rw [limits]
  exact (Entry.ofDocument_ok made).2.2

theorem load_document {s : Store} {text : List Char} {document : Value} {entry : Entry}
    (loaded : Document.load s.limits text = .ok document)
    (made : Entry.ofDocument s.limits.room document = .ok entry) (id : String) :
    (s.load text).2.document id = if s.ids s.issued = id then .ok document else s.document id := by
  unfold Store.document get
  rw [load_find? loaded made]
  by_cases new : s.ids s.issued = id
  · rw [if_pos new, if_pos new]
    exact congrArg Except.ok (Entry.ofDocument_ok made).1
  · rw [if_neg new, if_neg new]

/-- Where the payload of a command leaves room does not depend on more than the document. -/
theorem Settled.of_document {s t : Store} {id : String} {command : Command}
    (about : command.id? = some id) (settled : s.Settled command) (same : s.document id = t.document id)
    (limits : s.limits = t.limits) (unspoiled : t.Unspoiled id) : t.Settled command := by
  cases command with
  | check other method path text =>
    cases about
    refine ⟨unspoiled, fun _ document held => ?_⟩
    rw [← same] at held
    rw [← limits]
    exact settled.2 rfl document held
  | _ => trivial

/-- A document that is stored once more under its id changes no answer that the store gives. -/
theorem Sound.reload_eq {s : Store} (sound : s.Sound) {text : List Char} {document : Value} {entry : Entry}
    (loaded : Document.load s.limits text = .ok document)
    (made : Entry.ofDocument s.limits.room document = .ok entry)
    (held : s.document (s.ids s.issued) = .ok document) {command : Command}
    (other : command.isLoad = false)
    (settled : command.id? = some (s.ids s.issued) → s.Settled command) :
    ((s.load text).2.perform command).1 = (s.perform command).1 := by
  have limits : (s.load text).2.limits = s.limits := (s.perform_frame (.load text)).1
  have documents (id : String) : (s.load text).2.document id = s.document id := by
    rw [load_document loaded made]
    split
    · rename_i same
      rw [← same, held]
    · rfl
  cases about : command.id? with
  | none =>
    have same : (s.load text).2.contents = s.contents :=
      (load_stored loaded made).2.1.trans (assign_of_lookup? (document_eq_ok.mp held))
    have calm (t : Store) : t.Settled command := by
      cases command with
      | check => exact nomatch about
      | _ => trivial
    exact (sound.load text).reply_eq sound limits same other (calm _) (calm _)
  | some id =>
    by_cases new : s.ids s.issued = id
    · subst new
      have here : s.Settled command := settled about
      have there := here.of_document about (documents _).symm limits.symm (unspoiled_of_load loaded made)
      exact (sound.load text).about_eq sound limits (documents _) about there here
    · refine perform_of_find? ?_ limits about
      rw [load_find? loaded made, if_neg new]

end Store

/-- The exact condition under which a load that fails shows: the text is that of a YAML document whose
title, version or format version holds an integer with too many digits, whose operations can be listed, and
the store did not hold that very document under the id it was given. Where the text holds no document at
all, or one whose operations cannot be listed, the store is the same afterwards. A payload that is
checked against the document with that id counts only where it shows nothing of what was checked before. -/
theorem failed_load_shows_iff (limits : Document.Limits) (ids : Nat → String)
    (commands : List Store.Command) (text : List Char) :
    let s := (Store.empty limits ids).after commands
    let t := (s.load text).2
    (∀ fault, Document.load s.limits text = .error fault →
      s.load text = (.error (.ofFault fault), s)) ∧
    (∀ document, Document.load s.limits text = .ok document → ¬ Spec.Listable s.limits.room document →
      s.load text = (.error (.rejected Node.strayName), s)) ∧
    ((∃ e, (s.load text).1 = .error e) ∧
        (∃ command : Store.Command, command.isLoad = false ∧
          (command.id? = some (s.ids s.issued) → s.Settled command) ∧
          (t.perform command).1 ≠ (s.perform command).1) ↔
      ∃ document, Document.load s.limits text = .ok document ∧ Document.isJson text = false ∧
        Spec.Listable s.limits.room document ∧ Untellable document ∧
        s.document (s.ids s.issued) ≠ .ok document) := by
  intro s t
  have soundS : s.Sound := (Store.empty_sound limits ids).after commands
  refine ⟨fun fault refused => Store.load_error refused,
    fun document loaded unlisted => Store.load_rejected loaded unlisted, ?_⟩
  constructor
  · rintro ⟨failed, command, other, settled, shows⟩
    rcases s.load_cases text with ⟨_, refused⟩ | ⟨document, loaded, unlisted | ⟨listable, entry, made⟩⟩
    · have same : t = s := congrArg Prod.snd (Store.load_error refused)
      exact absurd (congrArg (fun u : Store => (u.perform command).1) same) shows
    · have same : t = s := congrArg Prod.snd (Store.load_rejected loaded unlisted)
      exact absurd (congrArg (fun u : Store => (u.perform command).1) same) shows
    · have untellable : Untellable document := by
        rcases Store.load_told loaded listable with ⟨untellable, _⟩ | ⟨_, report, told⟩
        · exact untellable
        · obtain ⟨e, failed⟩ := failed
          exact nomatch told.symm.trans failed
      refine ⟨document, loaded, ?_, listable, untellable, ?_⟩
      -- JSON spells its integers out, and is not read where one has too many digits.
      · by_contra json
        exact Document.load_json_short (by simpa using json) loaded untellable.holdsLong
      · intro held
        exact shows (soundS.reload_eq loaded made held other settled)
  · rintro ⟨document, loaded, _, listable, untellable, missing⟩
    refine ⟨Store.load_error_iff.mpr (Or.inr ⟨document, loaded, Or.inr untellable⟩),
      .document (s.ids s.issued), rfl, fun _ => trivial, ?_⟩
    have held : t.document (s.ids s.issued) = .ok document := by
      rcases Entry.ofDocument_cases s.limits.room document with ⟨_, entry, made⟩ | ⟨unlisted, _⟩
      · rw [Store.load_document loaded made, if_pos rfl]
      · exact absurd listable unlisted
    intro same
    exact missing ((Store.Reply.document.inj same).symm.trans held)

/-- A document whose title has more than 4300 decimal digits, but is written with fewer others. -/
def hexadecimalTitle : List Char :=
  "paths: {}\ninfo:\n  title: 0x".toList ++ List.replicate 3600 'f'

set_option maxRecDepth 4000 in
/-- Loading it into an empty store fails, and so does every listing from then on. -/
theorem failed_load_shows_hexadecimalTitle :
    let s := Store.empty {} countedId
    (∃ e, (s.load hexadecimalTitle).1 = .error e) ∧
      ((s.load hexadecimalTitle).2.perform .list).1 ≠ (s.perform .list).1 := by
  intro s
  have run : ((s.load hexadecimalTitle).1.toBool, (s.load hexadecimalTitle).2.list.toBool) =
      (false, false) := by decide +kernel
  obtain ⟨failed, silent⟩ := Prod.mk.inj run
  constructor
  · cases result : (s.load hexadecimalTitle).1 with
    | error e => exact ⟨e, rfl⟩
    | ok report => exact nomatch result ▸ failed
  · intro same
    have listed : (s.load hexadecimalTitle).2.list = .ok [] := Store.Reply.listed.inj same
    rw [listed] at silent
    exact nomatch silent

end PayloadCheck
