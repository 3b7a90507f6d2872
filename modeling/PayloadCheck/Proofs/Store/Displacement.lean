import PayloadCheck.Proofs.Store.Replies

namespace PayloadCheck

open Json Schema

namespace Store

/-- The listing succeeds, and names an id. -/
def Lists (s : Store) (id : String) : Prop := ∃ all, s.list = .ok all ∧ id ∈ all.map (·.id)

/-- Two stores reply alike to every command about an id of a given kind. -/
def AgreeOn (s t : Store) (id : String) (kind : Command → Prop) : Prop :=
  ∀ command : Command, command.id? = some id → kind command →
    (s.perform command).1 = (t.perform command).1

theorem summaries_ids {entries : List (String × Entry)} {all : List Summary}
    (told : summaries entries = .ok all) : all.map (·.id) = entries.map (·.1) := by
  induction entries generalizing all with
  | nil =>
    cases told
    rfl
  | cons stored rest ih =>
    obtain ⟨id, entry⟩ := stored
    rw [summaries] at told
    cases first : entry.summary id with
    | error e => simp [first] at told
    | ok summary =>
      cases others : summaries rest with
      | error e => simp [first, others] at told
      | ok behind =>
        simp only [first, others, Except.ok.injEq] at told
        subst told
        rw [List.map_cons, List.map_cons, (Entry.summary_ok first).1, ih others]

/-- A document is listed as long as every document in the store can be reported on. -/
theorem Sound.lists_iff {s : Store} (sound : s.Sound) {id : String} :
    s.Lists id ↔
      (∃ document, s.document id = .ok document) ∧ ∀ held ∈ s.contents, ¬ Untellable held.2 := by
  have held_iff : id ∈ s.contents.map (·.1) ↔ ∃ document, s.document id = .ok document := by
    simp only [document_eq_ok]
    constructor
    · intro among
      by_contra absent
      have none_found := Option.eq_none_iff_forall_not_mem.mpr fun document found =>
        absent ⟨document, found⟩
      obtain ⟨stored, member, same⟩ := List.mem_map.mp among
      exact lookup?_eq_none.mp none_found stored member same
    · rintro ⟨document, found⟩
      exact List.mem_map.mpr ⟨_, mem_of_lookup? found, rfl⟩
  have names {all : List Summary} (listed : s.list = .ok all) :
      all.map (·.id) = s.contents.map (·.1) := by
    rw [sound.list_eq] at listed
    rw [summaries_ids listed, List.map_map]
    rfl
  have fails := sound.list_error_iff
  rw [← held_iff]
  constructor
  · rintro ⟨all, listed, among⟩
    refine ⟨names listed ▸ among, fun held member untellable => ?_⟩
    obtain ⟨e, failed⟩ := fails.mpr ⟨held, member, untellable⟩
    exact nomatch listed.symm.trans failed
  · rintro ⟨among, tellable⟩
    cases listed : s.list with
    | ok all => exact ⟨all, listed, names listed ▸ among⟩
    | error e =>
      obtain ⟨held, member, untellable⟩ := fails.mp ⟨e, listed⟩
      exact absurd untellable (tellable held member)

end Store

/-- What a reported load does, whatever ids a store is given. The new document is there under the id that
is reported. A document that was there before is still listed, and answers as before, exactly if it was
not under that id, or is the same document, and if no document in the store is beyond report. A payload that
is checked against a document loaded again counts where it shows nothing of what was checked before. -/
theorem load_keeps_iff {limits : Document.Limits} {ids : Nat → String}
    {commands : List Store.Command} {text : List Char} {report : LoadReport}
    (reported : (((Store.empty limits ids).after commands).load text).1 = .ok report) :
    let s := (Store.empty limits ids).after commands
    let t := (s.load text).2
    report.summary.id = ids s.issued ∧
    (∃ document, Document.load limits text = .ok document ∧
      t.document report.summary.id = .ok document) ∧
    ∀ id old, s.document id = .ok old →
      (t.Lists id ∧ t.AgreeOn s id (fun command => id = report.summary.id → s.Settled command) ↔
        (id = report.summary.id → Document.load limits text = .ok old) ∧
          ∀ held ∈ t.contents, ¬ Untellable held.2) := by
  intro s t
  have soundS : s.Sound := (Store.empty_sound limits ids).after commands
  have soundT : t.Sound := soundS.load text
  obtain ⟨same_limits, same_ids⟩ := (Store.empty limits ids).after_frame commands
  have kept_limits : t.limits = s.limits := (s.perform_frame (.load text)).1
  obtain ⟨document, entry, loaded, made, summary, _⟩ := Store.load_reported reported
  have its_id : report.summary.id = s.ids s.issued := (Entry.summary_ok summary).1
  have after (id : String) :
      t.document id = if report.summary.id = id then .ok document else s.document id :=
    its_id ▸ Store.load_document loaded made id
  have loaded' : Document.load limits text = .ok document := by
    rw [same_limits] at loaded
    exact loaded
  refine ⟨its_id.trans (congrFun same_ids _), ⟨document, loaded', by rw [after, if_pos rfl]⟩, ?_⟩
  intro id old held
  have there : ∃ document, t.document id = .ok document := by
    rw [after]
    split
    · exact ⟨document, rfl⟩
    · exact ⟨old, held⟩
  have agree : t.AgreeOn s id (fun command => id = report.summary.id → s.Settled command) ↔
      (id = report.summary.id → Document.load limits text = .ok old) := by
    constructor
    · intro agree same
      have documents : t.document id = s.document id :=
        Store.Reply.document.inj (agree (.document id) rfl fun _ => trivial)
      rw [after, if_pos same.symm, held] at documents
      rw [loaded', Except.ok.inj documents]
    · intro kept command about settled
      by_cases same : id = report.summary.id
      · have again : s.document (s.ids s.issued) = .ok document := by
          rw [← its_id, ← same, held, Except.ok.inj ((kept same).symm.trans loaded')]
        have other : command.isLoad = false := by
          cases command <;> first | rfl | exact nomatch about
        exact soundS.reload_eq loaded made again other fun _ => settled same
      · refine Store.perform_of_find? ?_ kept_limits about
        rw [Store.load_find? loaded made, ← its_id, if_neg (Ne.symm same)]
  rw [soundT.lists_iff, agree]
  constructor
  · rintro ⟨⟨_, tellable⟩, kept⟩
    exact ⟨kept, tellable⟩
  · rintro ⟨kept, tellable⟩
    exact ⟨⟨there, tellable⟩, kept⟩

def firstTitled : List Char :=
  "\x7b\"paths\": \x7b\x7d, \"info\": \x7b\"title\": \"First\"\x7d\x7d".toList

def secondTitled : List Char :=
  "\x7b\"paths\": \x7b\x7d, \"info\": \x7b\"title\": \"Second\"\x7d\x7d".toList

/-- The title of the document with an id, if both are there. -/
def Store.title? (s : Store) (id : String) : Option String :=
  (s.document id).toOption.bind fun document => (document.dig? ["info", "title"]).bind (·.str?)

/-- With different ids both documents are kept. -/
theorem load_keeps_iff_secondTitled :
    let s := (Store.empty {} countedId).after [.load firstTitled]
    let t := (s.load secondTitled).2
    (∃ report, (s.load secondTitled).1 = .ok report ∧ report.summary.id = "00000002") ∧
      t.Lists "00000001" ∧ t.AgreeOn s "00000001" (fun _ => True) := by
  intro s t
  have run : ((s.load secondTitled).1.toBool, (s.document "00000001").toBool, t.list.toBool) =
      (true, true, true) := by decide +kernel
  obtain ⟨succeeds, rest⟩ := Prod.mk.inj run
  obtain ⟨held, listed⟩ := Prod.mk.inj rest
  have sound : t.Sound := ((Store.empty_sound {} countedId).after _).load _
  have tellable : ∀ held ∈ t.contents, ¬ Untellable held.2 := by
    intro held member untellable
    obtain ⟨e, failed⟩ := sound.list_error_iff.mpr ⟨held, member, untellable⟩
    exact nomatch failed ▸ listed
  cases loaded : (s.load secondTitled).1 with
  | error e => exact nomatch loaded ▸ succeeds
  | ok report =>
    cases found : s.document "00000001" with
    | error e => exact nomatch found ▸ held
    | ok old =>
      obtain ⟨its_id, _, keeps⟩ := load_keeps_iff loaded
      have second : report.summary.id = "00000002" := its_id.trans (by decide +kernel)
      have other : "00000001" ≠ report.summary.id := fun same => nomatch second ▸ same
      obtain ⟨lists, agree⟩ :=
        (keeps "00000001" old found).mpr ⟨fun same => absurd same other, tellable⟩
      exact ⟨⟨report, rfl, second⟩, lists, fun command about _ =>
        agree command about fun same => absurd same other⟩

set_option maxRecDepth 4000 in
/-- Two ways to lose a document by a load that is reported: it gets the id of that document, or a
document beyond report has got into the store before. -/
theorem load_loses_firstTitled :
    (let s := (Store.empty {} fun _ => "00000001").after [.load firstTitled]
      let t := (s.load secondTitled).2
      (s.load secondTitled).1.toBool = true ∧ s.title? "00000001" = some "First" ∧
        ¬ t.AgreeOn s "00000001" (s.Settled ·)) ∧
    (let s := (Store.empty {} countedId).after [.load firstTitled, .load hexadecimalTitle]
      let t := (s.load secondTitled).2
      (s.load secondTitled).1.toBool = true ∧ s.title? "00000001" = some "First" ∧
        ¬ t.Lists "00000001") := by
  constructor
  · intro s t
    have titles : (t.title? "00000001", s.title? "00000001") = (some "Second", some "First") := by
      decide +kernel
    obtain ⟨after, before⟩ := Prod.mk.inj titles
    refine ⟨by decide +kernel, before, fun agree => ?_⟩
    have same : t.document "00000001" = s.document "00000001" :=
      Store.Reply.document.inj (agree (.document "00000001") rfl trivial)
    unfold Store.title? at after before
    rw [same, before] at after
    exact nomatch after
  · intro s t
    have run : ((s.load secondTitled).1.toBool, s.title? "00000001", t.list.toBool) =
        (true, some "First", false) := by decide +kernel
    obtain ⟨reported, rest⟩ := Prod.mk.inj run
    obtain ⟨before, silent⟩ := Prod.mk.inj rest
    refine ⟨reported, before, fun ⟨all, listed, _⟩ => ?_⟩
    rw [listed] at silent
    exact nomatch silent

end PayloadCheck
