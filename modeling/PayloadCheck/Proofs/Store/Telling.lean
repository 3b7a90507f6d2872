import PayloadCheck.Proofs.Schema.Spoken
import PayloadCheck.Proofs.Store.Operations

namespace PayloadCheck

open Json Schema

theorem ok_of_mapError {ε δ α : Type} {f : ε → δ} {result : Except ε α} {a : α}
    (given : result.mapError f = .ok a) : result = .ok a := by
  cases result with
  | error e => exact nomatch given
  | ok b => exact congrArg Except.ok (Except.ok.inj given)

namespace Spec

/-- What holds of everything that is remembered, and of a new answer, holds of whatever is answered and of
everything that is remembered then. -/
theorem Memo.remembered_all {α β ε : Type} [DecidableEq α] {memo : Memo α β} {p : β → Prop} (a : α)
    (answer : α → Except ε β) (old : ∀ entry ∈ memo, p entry.2) (new : ∀ b, answer a = .ok b → p b) :
    (∀ b, (memo.remembered a answer).1 = .ok b → p b) ∧
      ∀ entry ∈ (memo.remembered a answer).2, p entry.2 := by
  unfold remembered
  split
  · rename_i b found
    obtain ⟨entry, hit, rfl⟩ := Option.map_eq_some_iff.mp found
    refine ⟨?_, old⟩
    rintro _ ⟨⟩
    exact old entry (List.mem_of_find?_eq_some hit)
  · split
    · rename_i b given
      refine ⟨?_, List.forall_mem_cons.mpr ⟨new b given, old⟩⟩
      rintro _ ⟨⟩
      exact new b given
    · exact ⟨fun _ => nofun, old⟩

/-- A schema, if there is one, can be written down. -/
def PlainSchema (found : Option Node) : Prop := ∀ n ∈ found, n.toValue.IsPlain

theorem readFound_plain {room : Nat} {found : Option Value} {schema : Option Node}
    (plain : ∀ raw ∈ found, raw.IsPlain) (given : readFound room found = .ok schema) :
    PlainSchema schema := by
  intro n told
  obtain ⟨raw, at_raw, read⟩ := Option.bind_eq_some_iff.mp ((readFound_ok given).symm.trans told)
  exact Node.toValue_of_read (ofValue?_of_readSchema read) ▸ Node.restored_isPlain raw (plain raw at_raw)

namespace Resolver

/-- A document can be written down, and so can whatever schemas are remembered of it. -/
structure Plain (r : Resolver) : Prop where
  document : r.document.IsPlain
  bodies : ∀ entry ∈ r.bodies, PlainSchema entry.2
  named : ∀ entry ∈ r.named, PlainSchema entry.2

theorem Sound.plain {room : Nat} {r : Resolver} (sound : r.Sound room) (plain : r.document.IsPlain) :
    r.Plain where
  document := plain
  bodies entry among := readFound_plain (fun _ => inherited_isPlain.rawBody? plain) (sound.bodies entry among)
  named entry among := readFound_plain (fun _ => inherited_isPlain.rawRef? plain) (sound.named entry among)

/-- What computations over a resolver come to as long as whatever is remembered can be written down, and they
leave it so. -/
def plainly : Assurance Lookups where
  assures x p := ∀ r : Resolver, r.Plain → (∀ a, (x r).1 = .ok a → p a) ∧ (x r).2.Plain
  return_assures holds r plain := by
    refine ⟨?_, plain⟩
    rintro _ ⟨⟩
    exact holds
  then_assures {α β x p f q} first next r plain := by
    obtain ⟨each, after⟩ := first r plain
    have step : (x >>= f) r = ExceptT.bindCont f (x r).1 (x r).2 := rfl
    rw [step]
    cases result : (x r).1 with
    | error e => exact ⟨fun _ => nofun, after⟩
    | ok a => exact next a (each a result) _ after

theorem resolve_plainly (room : Nat) (method path : String) :
    plainly.assures (resolve room method path) PlainSchema := by
  intro r plain
  obtain ⟨each, bodies⟩ := Memo.remembered_all (lowerCase method, path)
    (fun key => readFound room (rawBody? r.document key.1 key.2)) plain.bodies fun _ =>
      readFound_plain fun _ => inherited_isPlain.rawBody? plain.document
  exact ⟨each, plain.document, bodies, plain.named⟩

theorem lookupRef_plainly (room : Nat) (ref : String) :
    plainly.assures (lookupRef room ref) PlainSchema := by
  intro r plain
  obtain ⟨each, named⟩ := Memo.remembered_all ref (fun ref => readFound room (rawRef? r.document ref))
    plain.named fun _ => readFound_plain fun _ => inherited_isPlain.rawRef? plain.document
  exact ⟨each, plain.document, plain.bodies, named⟩

/-- The diagnosis of a payload is that of its text, and its schema errors can be told. -/
theorem check_plainly (room : Nat) (method path : String) (text : List Char) :
    plainly.assures (check room method path text) fun o =>
      o.syntaxDiagnosis = diagnose text ∧ SpokenErrors o.schemaErrors := by
  intro r plain
  have named (k : Nat) : plainly.LooksUpSpoken (some (references k r.document)) := by
    rintro _ ⟨⟩ ref r plain
    obtain ⟨each, after⟩ := lookupRef_plainly k ref r plain
    exact ⟨fun found given n told => (each found given n told).whole, after⟩
  have whole : plainly.assures (target room method path) fun found => ∀ given ∈ found, ∃ n : Node,
      given = .node n ∧ n.toValue.isWhole = true := by
    unfold target
    split
    · exact plainly.return_assures fun _ absent => nomatch absent
    · refine plainly.then_assures (resolve_plainly room method path) fun node plain =>
        plainly.return_assures ?_
      rintro _ told
      obtain ⟨n, rfl, rfl⟩ := Option.map_eq_some_iff.mp told
      exact ⟨n, rfl, (plain n rfl).whole⟩
  exact Assurance.checkText_spoken named whole text room r plain

end Resolver

end Spec

namespace Store

/-- Whatever a store holds and remembers can be written down. -/
def Plain (s : Store) : Prop := ∀ stored ∈ s.entries, stored.2.resolver.Plain

section

variable {s : Store} (plain : s.Plain)
include plain

theorem Plain.entry {id : String} {entry : Entry} (found : s.find? id = some entry) :
    entry.resolver.Plain :=
  plain _ (mem_of_lookup? found)

theorem Plain.put (id : String) {entry : Entry} (fresh : entry.resolver.Plain) : (s.put id entry).Plain := by
  intro stored member
  rcases mem_of_mem_assign member with rfl | old
  · exact fresh
  · exact plain stored old

theorem Plain.perform {command : Command} (brings : command.Brings s.limits Value.IsPlain) :
    (s.perform command).2.Plain := by
  cases command with
  | load text =>
    change (s.load text).2.Plain
    rcases s.load_cases text with ⟨fault, refused⟩ | ⟨document, loaded, unlisted | ⟨_, entry, made⟩⟩
    · rw [load_error refused]
      exact plain
    · rw [load_rejected loaded unlisted]
      exact plain
    · rw [load_ok loaded made]
      obtain ⟨same, _, sound⟩ := Entry.ofDocument_ok made
      exact plain.put _ (sound.plain (same ▸ brings document loaded))
  | remove id =>
    change (s.remove id).2.Plain
    unfold Store.remove
    cases s.find? id with
    | none => exact plain
    | some entry => exact fun stored member => plain stored (List.mem_of_mem_filter member)
  | schema id method path =>
    change (s.schema id method path).2.Plain
    unfold Store.schema get
    cases found : s.find? id with
    | none => exact plain
    | some entry =>
      exact plain.put id (Spec.Resolver.resolve_plainly _ method path _ (plain.entry found)).2
  | check id method path text =>
    change (s.check id method path text).2.Plain
    unfold Store.check get
    cases found : s.find? id with
    | none => exact plain
    | some entry =>
      exact plain.put id (Spec.Resolver.check_plainly _ method path text _ (plain.entry found)).2
  | _ => exact plain

/-- A run that brings in nothing but what can be written down leaves nothing else behind. -/
theorem Plain.after {commands : List Command}
    (brings : ∀ command ∈ commands, command.Brings s.limits Value.IsPlain) :
    (s.after commands).Plain := by
  induction commands generalizing s with
  | nil => exact plain
  | cons command rest ih =>
    obtain ⟨first, others⟩ := List.forall_mem_cons.mp brings
    have limits : (s.perform command).2.limits = s.limits := (s.perform_frame command).1
    exact ih (plain.perform first) (by rwa [limits])

theorem Plain.schema {id method path : String} {node : Node}
    (found : (s.schema id method path).1 = .ok (some node)) : node.toValue.IsPlain := by
  unfold Store.schema get at found
  cases stored : s.find? id with
  | none =>
    rw [stored] at found
    exact nomatch found
  | some entry =>
    obtain ⟨each, _⟩ := Spec.Resolver.resolve_plainly s.limits.room method path _ (plain.entry stored)
    rw [stored] at found
    exact each _ (ok_of_mapError found) node rfl

theorem Plain.check {id method path : String} {text : List Char} {o : Outcome}
    (checked : (s.check id method path text).1 = .ok o) :
    o.syntaxDiagnosis = diagnose text ∧ SpokenErrors o.schemaErrors := by
  unfold Store.check get at checked
  cases stored : s.find? id with
  | none =>
    rw [stored] at checked
    exact nomatch checked
  | some entry =>
    obtain ⟨each, _⟩ := Spec.Resolver.check_plainly s.limits.room method path text _ (plain.entry stored)
    rw [stored] at checked
    exact each o (ok_of_mapError checked)

end

end Store

end PayloadCheck
