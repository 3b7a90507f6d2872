import Mathlib.Data.List.Forall2
import PayloadCheck.Proofs.Store.Replies

namespace PayloadCheck.Store

open Json Schema

/-- A load that has been reported: its report, and the text that was loaded. -/
structure Holding where
  report : LoadReport
  text : List Char

def Holding.id (h : Holding) : String := h.report.summary.id

/-- What is held after a command and its reply. -/
def Holding.next (held : List Holding) : Command × Reply → List Holding
  | (.load text, .loaded (.ok report)) => held ++ [⟨report, text⟩]
  | (.remove id, .removed (.ok _)) => held.filter (·.id ≠ id)
  | _ => held

/-- What is held after a history that began with nothing, in the order of the loads. -/
def holdings (history : List (Command × Reply)) : List Holding := history.foldl Holding.next []

/-- A holding tells what is stored of it. -/
structure Holding.Tells (limits : Document.Limits) (h : Holding) (stored : String × Value) : Prop where
  id : h.id = stored.1
  loaded : Document.load limits h.text = .ok stored.2
  summary : (Entry.fresh limits.room stored.2).summary stored.1 = .ok h.report.summary
  withBody : h.report.withBody = ((Spec.operations limits.room stored.2).filter (·.hasSchema)).length

/-- A store holds what a list of holdings tells, in its order, under ids it has given out. -/
structure Represents (s : Store) (held : List Holding) : Prop where
  sound : s.Sound
  each : (s.contents.map (·.1)).Nodup
  given : ∀ stored ∈ s.contents, ∃ n < s.issued, s.ids n = stored.1
  tells : List.Forall₂ (Holding.Tells s.limits) held s.contents

theorem Represents.empty (limits : Document.Limits) (ids : Nat → String) :
    Represents (Store.empty limits ids) [] :=
  ⟨empty_sound limits ids, List.nodup_nil, List.forall_mem_nil _, .nil⟩

/-- No other than the next id is given out by a command. -/
theorem issued_le_perform (s : Store) (command : Command) :
    s.issued ≤ (s.perform command).2.issued := by
  cases command with
  | load text =>
    simp only [perform, Store.load]
    split
    · exact Nat.le_refl _
    · split
      · exact Nat.le_refl _
      · exact Nat.le_succ _
  | remove id => exact Nat.le_of_eq (remove_issued s id).symm
  | schema id method path =>
    simp only [perform, Store.schema]
    split <;> exact Nat.le_refl _
  | check id method path text =>
    simp only [perform, Store.check]
    split <;> exact Nat.le_refl _
  | _ => exact Nat.le_refl _

theorem issued_le_after (s : Store) (commands : List Command) : s.issued ≤ (s.after commands).issued := by
  induction commands generalizing s with
  | nil => exact Nat.le_refl _
  | cons command rest ih => exact Nat.le_trans (s.issued_le_perform command) (ih _)

theorem tells_ids {limits : Document.Limits} {held : List Holding} {stored : List (String × Value)}
    (tells : List.Forall₂ (Holding.Tells limits) held stored) :
    held.map (·.id) = stored.map (·.1) := by
  induction tells with
  | nil => rfl
  | cons first _ ih => exact congrArg₂ List.cons first.id ih

theorem tells_summaries {limits : Document.Limits} {held : List Holding}
    {stored : List (String × Value)} (tells : List.Forall₂ (Holding.Tells limits) held stored) :
    summaries (stored.map fun one => (one.1, Entry.fresh limits.room one.2)) =
      .ok (held.map (·.report.summary)) := by
  induction tells with
  | nil => rfl
  | cons first _ ih => rw [List.map_cons, List.map_cons, summaries, first.summary, ih]

theorem tells_stored {limits : Document.Limits} {held : List Holding} {stored : List (String × Value)}
    (tells : List.Forall₂ (Holding.Tells limits) held stored) {h : Holding} (among : h ∈ held) :
    ∃ one ∈ stored, h.Tells limits one := by
  induction tells with
  | nil => exact nomatch among
  | cons first _ ih =>
    rcases List.mem_cons.mp among with rfl | later
    · exact ⟨_, List.mem_cons_self, first⟩
    · obtain ⟨one, found, told⟩ := ih later
      exact ⟨one, List.mem_cons_of_mem _ found, told⟩

theorem Holding.next_of_unchanged (held : List Holding) (command : Command) {reply : Reply}
    (unchanged : reply.isChange = false) : next held (command, reply) = held := by
  unfold next
  split
  · rename_i same
    cases same
    exact nomatch unchanged
  · rename_i same
    cases same
    exact nomatch unchanged
  · rfl

section

variable {s : Store} {held : List Holding} (rep : Represents s held)
include rep

theorem Represents.alike {t : Store} (sound : t.Sound) (alike : Alike t s) : Represents t held where
  sound := sound
  each := alike.contents ▸ rep.each
  given := by
    rw [alike.contents, alike.issued, alike.ids]
    exact rep.given
  tells := by
    rw [alike.contents, alike.limits]
    exact rep.tells

/-- Under an id that has not been given out before, a reported load goes to the end. -/
theorem Represents.load {text : List Char} {report : LoadReport}
    (reported : (s.load text).1 = .ok report) (fresh : ∀ n < s.issued, s.ids n ≠ s.ids s.issued) :
    Represents (s.load text).2 (held ++ [⟨report, text⟩]) := by
  obtain ⟨document, entry, loaded, made, summary, withBody⟩ := load_reported reported
  obtain ⟨_, stored, spent⟩ := load_stored loaded made
  have new : lookup? (s.ids s.issued) s.contents = none := by
    refine lookup?_eq_none.mpr fun stored among same => ?_
    obtain ⟨n, earlier, gave⟩ := rep.given stored among
    exact fresh n earlier (gave.trans same)
  have contents : (s.load text).2.contents = s.contents ++ [(s.ids s.issued, document)] :=
    stored.trans (assign_of_lookup?_none document new)
  have limits : (s.load text).2.limits = s.limits := (s.perform_frame (.load text)).1
  have ids : (s.load text).2.ids = s.ids := (s.perform_frame (.load text)).2
  refine ⟨rep.sound.load text, ?_, ?_, ?_⟩
  · rw [contents, List.map_append, List.nodup_append]
    refine ⟨rep.each, List.nodup_singleton _, fun name among other last => ?_⟩
    obtain ⟨stored, held, rfl⟩ := List.mem_map.mp among
    rw [List.map_singleton, List.mem_singleton] at last
    exact last ▸ lookup?_eq_none.mp new stored held
  · rw [contents, spent, ids]
    intro stored among
    rcases List.mem_append.mp among with old | last
    · obtain ⟨n, earlier, gave⟩ := rep.given stored old
      exact ⟨n, Nat.lt_succ_of_lt earlier, gave⟩
    · exact ⟨s.issued, Nat.lt_succ_self _, by rw [List.mem_singleton.mp last]⟩
  · rw [contents, limits]
    have told : Holding.Tells s.limits ⟨report, text⟩ (s.ids s.issued, document) :=
      ⟨(Entry.summary_ok summary).1, loaded, summary, withBody⟩
    exact List.rel_append rep.tells (.cons told .nil)

theorem Represents.remove (id : String) : Represents (s.remove id).2 (held.filter (·.id ≠ id)) := by
  have limits : (s.remove id).2.limits = s.limits := (s.perform_frame (.remove id)).1
  have ids : (s.remove id).2.ids = s.ids := (s.perform_frame (.remove id)).2
  refine ⟨rep.sound.remove id, ?_, ?_, ?_⟩
  · rw [contents_remove]
    exact rep.each.sublist (List.filter_sublist.map _)
  · rw [contents_remove, remove_issued, ids]
    exact fun stored among => rep.given stored (List.mem_of_mem_filter among)
  · rw [contents_remove, limits]
    refine List.rel_filter (fun h stored told => ?_) rep.tells
    simp [told.id]

/-- One step: whatever is asked, the store goes on to hold what the history tells. -/
theorem Represents.perform (command : Command)
    (fresh : s.issued < (s.perform command).2.issued → ∀ n < s.issued, s.ids n ≠ s.ids s.issued)
    (tame : (s.perform command).1.isStray = false) :
    Represents (s.perform command).2 (Holding.next held (command, (s.perform command).1)) := by
  cases changed : (s.perform command).1.isChange with
  | false =>
    rw [Holding.next_of_unchanged held command changed]
    exact rep.alike (rep.sound.perform command) (rep.sound.unchanged changed tame)
  | true =>
    cases command with
    | load text =>
      change (Reply.loaded (s.load text).1).isChange = true at changed
      change Represents (s.load text).2 (Holding.next held (.load text, .loaded (s.load text).1))
      cases result : (s.load text).1 with
      | error e => simp [result, Reply.isChange] at changed
      | ok report =>
        obtain ⟨document, entry, loaded, made, _⟩ := load_reported result
        obtain ⟨_, _, spent⟩ := load_stored loaded made
        exact rep.load result (fresh (spent ▸ Nat.lt_succ_self _))
    | remove id =>
      change (Reply.removed (s.remove id).1).isChange = true at changed
      change Represents (s.remove id).2 (Holding.next held (.remove id, .removed (s.remove id).1))
      cases result : (s.remove id).1 with
      | error e => simp [result, Reply.isChange] at changed
      | ok done => exact rep.remove id
    | _ => exact absurd changed Bool.false_ne_true

/-- A run: if the ids it gives out differ, and no load goes astray, the store holds in the end what
the history tells. -/
theorem Represents.after (commands : List Command)
    (distinct : ∀ n < (s.after commands).issued, ∀ m < n, s.ids m ≠ s.ids n)
    (tame : ∀ entry ∈ s.history commands, entry.2.isStray = false) :
    Represents (s.after commands) ((s.history commands).foldl Holding.next held) := by
  induction commands generalizing s held with
  | nil => exact rep
  | cons command rest ih =>
    have ids : (s.perform command).2.ids = s.ids := (s.perform_frame command).2
    have final := issued_le_after (s.perform command).2 rest
    refine ih (rep.perform command (fun spent => distinct _ (Nat.lt_of_lt_of_le spent final))
      (tame _ List.mem_cons_self)) ?_ fun entry later => tame entry (List.mem_cons_of_mem _ later)
    rw [ids]
    exact distinct

end

end PayloadCheck.Store

namespace PayloadCheck

open Json Schema

/-- A store is the list of what has been loaded into it and not removed. After every run that gives out
different ids, and in which each load comes to a report or to reasons why there is no document: the
listing is that of the reports, in the order of the loads; a document is the one its text holds, and its
operations are as many as the report says; an id that nothing is held under is refused by name. Nothing but a
load that is reported, or a removal that is done, shows in any later reply, unless it is the check of a
payload; and not even that where all payloads leave room to read what the tables of their documents hold. -/
theorem store_refines_holdings {limits : Document.Limits} {ids : Nat → String}
    {commands : List Store.Command}
    (distinct : ∀ n < ((Store.empty limits ids).after commands).issued, ∀ m < n, ids m ≠ ids n)
    (tame : ∀ entry ∈ (Store.empty limits ids).history commands, entry.2.isStray = false) :
    let s := (Store.empty limits ids).after commands
    let held := Store.holdings ((Store.empty limits ids).history commands)
    (held.map (·.id)).Nodup ∧
    s.list = .ok (held.map (·.report.summary)) ∧
    (∀ h ∈ held, ∃ document operations,
      Document.load limits h.text = .ok document ∧ s.document h.id = .ok document ∧
      s.operations h.id = .ok operations ∧ h.report.summary.operations = operations.length ∧
      h.report.withBody = (operations.filter (·.hasSchema)).length) ∧
    (∀ command id, command.id? = some id →
      ((s.perform command).1.failure? = some (.unknownId id) ↔ ∀ h ∈ held, h.id ≠ id)) ∧
    (∀ command, (s.perform command).1.isChange = false → (s.perform command).1.isStray = false →
      (command.isCheck = false → ∀ later, (s.perform command).2.history later = s.history later) ∧
      ((∀ id, (Store.empty limits ids).LeavesRoom id (commands ++ [command])) →
        ∀ later, (∀ id, s.LeavesRoom id later) →
          (s.perform command).2.history later = s.history later)) := by
  intro s held
  have rep : Store.Represents s held := (Store.Represents.empty limits ids).after commands distinct tame
  have same_limits : s.limits = limits := ((Store.empty limits ids).after_frame commands).1
  have ids_eq : held.map (·.id) = s.contents.map (·.1) := Store.tells_ids rep.tells
  refine ⟨ids_eq ▸ rep.each, ?_, ?_, ?_, ?_⟩
  · rw [rep.sound.list_eq, Store.tells_summaries rep.tells]
  · intro h among
    obtain ⟨⟨id, document⟩, stored, told⟩ := Store.tells_stored rep.tells among
    have found : s.document h.id = .ok document :=
      Store.document_eq_ok.mpr (lookup?_of_mem rep.each (told.id ▸ stored))
    refine ⟨document, Spec.operations s.limits.room document, same_limits ▸ told.loaded, found, ?_, ?_,
      told.withBody⟩
    · rw [rep.sound.operations_eq, found]
      rfl
    · exact (Entry.summary_ok told.summary).2
  · intro command id about
    have absent : (∀ h ∈ held, h.id ≠ id) ↔ lookup? id s.contents = none := by
      rw [lookup?_eq_none, ← List.forall_mem_map (f := Store.Holding.id) (P := (· ≠ id)),
        ← List.forall_mem_map (f := Prod.fst) (P := (· ≠ id))]
      exact ids_eq ▸ Iff.rfl
    rw [s.failure?_unknown about, absent]
  · intro command unchanged calm
    have sound : (s.perform command).2.Sound := rep.sound.perform command
    constructor
    · intro unchecked later
      exact sound.history_eq rep.sound (Store.unchanged_bare unchecked unchanged calm) later
    · intro roomy later roomy_later
      have alike := rep.sound.unchanged unchanged calm
      have unspoiled (id : String) : s.Unspoiled id :=
        (Store.empty_unspoiled limits ids id).after (Store.empty_sound limits ids)
          (Store.leavesRoom_append.mp (roomy id)).1
      have still (id : String) : (s.perform command).2.Unspoiled id :=
        (unspoiled id).perform rep.sound (Store.leavesRoom_append.mp (roomy id)).2.1
      exact (rep.sound.history_alike sound alike.symm unspoiled still roomy_later).symm

/-- Two documents are loaded and one is asked for a schema, a text is refused, the first is removed. -/
def replacedTitle : List Store.Command :=
  [.load "\x7b\"paths\": \x7b\x7d\x7d".toList, .load "[]".toList,
    .load "\x7b\"paths\": \x7b\x7d, \"info\": \x7b\"title\": \"Next\"\x7d\x7d".toList,
    .schema "00000002" "post" "/", .remove "00000001"]

theorem store_refines_holdings_replacedTitle :
    let s := (Store.empty {} countedId).after replacedTitle
    (∀ n < s.issued, ∀ m < n, countedId m ≠ countedId n) ∧
    (∀ entry ∈ (Store.empty {} countedId).history replacedTitle, entry.2.isStray = false) ∧
    s.list = .ok [⟨"00000002", some "Next", none, none, 0⟩] := by
  intro s
  have distinct : ∀ n < s.issued, ∀ m < n, countedId m ≠ countedId n := by decide +kernel
  have tame : ∀ entry ∈ (Store.empty {} countedId).history replacedTitle,
      entry.2.isStray = false := by decide +kernel
  have told : (Store.holdings ((Store.empty {} countedId).history replacedTitle)).map
      (·.report.summary) = [⟨"00000002", some "Next", none, none, 0⟩] := by decide +kernel
  obtain ⟨_, listed, _⟩ := store_refines_holdings distinct tame
  exact ⟨distinct, tame, told ▸ listed⟩

end PayloadCheck
