import PayloadCheck.Proofs.Schema.RoundTrip
import PayloadCheck.Proofs.Spec.History

namespace PayloadCheck.Spec

open Json Schema

theorem inherited_whole : Inherited fun v => v.isWhole = true where
  children {v} whole w inside := by
    cases v with
    | arr vs => exact Value.areWhole_iff.mp whole w inside
    | obj members =>
      obtain ⟨member, among, rfl⟩ := List.mem_map.mp inside
      exact (Value.haveWhole_iff.mp whole member among).2
    | _ => exact nomatch inside
  reference text := by
    have named : Text.isWhole "$ref" = true := by decide
    exact Value.haveWhole_iff.mpr (List.forall_mem_singleton.mpr ⟨named, text⟩)

/-- Nothing that is read as a schema in a document has a name that is no text. -/
structure Legible (document : Value) : Prop where
  named : ∀ {ref raw}, rawRef? document ref = some raw → Node.hasStrayName raw = false
  bodies : ∀ {method path raw}, rawBody? document method path = some raw →
    Node.hasStrayName raw = false

/-- A document whose texts consist of characters is read without an error. -/
theorem legible_of_whole {document : Value} (whole : document.isWhole = true) : Legible document where
  named found := Node.hasStrayName_of_whole _ (inherited_whole.rawRef? whole found)
  bodies found := Node.hasStrayName_of_whole _ (inherited_whole.rawBody? whole found)

/-- Reading the schema of no operation of a document ends with an error. -/
def Listable (room : Nat) (document : Value) : Prop :=
  ∀ d ∈ declarations document, ∀ raw, rawBody? document (lowerCase d.method) d.path = some raw →
    Node.fault? raw room ≠ some .strayName

theorem readFound_error_iff {room : Nat} {found : Option Value} {e : InputError} :
    readFound room found = .error e ↔
      e = Node.strayName ∧ ∃ raw, found = some raw ∧ Node.fault? raw room = some .strayName := by
  cases found with
  | none => simp [readFound]
  | some raw =>
    simp only [readFound, Option.bind_some, Node.readError?]
    cases met : Node.fault? raw room with
    | none => simp [met]
    | some fault => cases fault <;> simp [met, eq_comm]

/-- The list of the operations of a document ends with an error exactly if it cannot be made. -/
theorem listed_cases (room : Nat) (document : Value) :
    Listable room document ∧
        (∃ listed, Resolver.trySummaries document room (declarations document) = .ok listed) ∨
      ¬ Listable room document ∧
        Resolver.trySummaries document room (declarations document) = .error Node.strayName := by
  unfold Listable
  induction declarations document with
  | nil => exact .inl ⟨List.forall_mem_nil _, [], rfl⟩
  | cons d rest ih =>
    rw [Resolver.trySummaries, List.forall_mem_cons]
    cases atBody : readFound room (rawBody? document (lowerCase d.method) d.path) with
    | error e =>
      obtain ⟨rfl, raw, found, met⟩ := readFound_error_iff.mp atBody
      exact .inr ⟨fun fine => fine.1 raw found met, rfl⟩
    | ok node =>
      have clear : ∀ raw, rawBody? document (lowerCase d.method) d.path = some raw →
          Node.fault? raw room ≠ some .strayName := by
        intro raw found met
        cases atBody.symm.trans (readFound_error_iff.mpr ⟨rfl, raw, found, met⟩)
      rcases ih with ⟨fine, others, listed⟩ | ⟨stray, failed⟩
      · exact .inl ⟨⟨clear, fine⟩, _, by rw [listed]; rfl⟩
      · exact .inr ⟨fun fine => stray fine.2, by rw [failed]; rfl⟩

theorem readFound_eq {found : Option Value} (room : Nat)
    (clear : ∀ raw, found = some raw → Node.hasStrayName raw = false) :
    readFound room found = .ok (found.bind (readSchema room)) := by
  cases found with
  | none => rfl
  | some raw => simp only [readFound, Option.bind_some, Node.readError?_eq_none (clear raw rfl)]

section

variable {document : Value} (legible : Legible document) (room : Nat)
include legible

theorem Legible.readFound_ref (ref : String) :
    readFound room (rawRef? document ref) = .ok (lookupRef room document ref) :=
  readFound_eq room fun _ found => legible.named found

theorem Legible.readFound_body (method path : String) :
    readFound room (rawBody? document (lowerCase method) path) = .ok (resolve room document method path) :=
  readFound_eq room fun _ found => legible.bodies found

theorem Legible.trySummaries_eq (declared : List Declaration) :
    Resolver.trySummaries document room declared =
      .ok (declared.map fun d => d.operation (resolve room document d.method d.path).isSome) := by
  induction declared with
  | nil => rfl
  | cons d rest ih =>
    rw [Resolver.trySummaries, legible.readFound_body, ih]
    rfl

theorem Legible.tryTarget_eq {method path : String} (method_named : method ≠ "") (path_named : path ≠ "") :
    Resolver.tryTarget document room method path =
      .ok ((resolve room document method path).map .node) := by
  simp only [Resolver.tryTarget, method_named, path_named, decide_false, Bool.or_self,
    Bool.false_eq_true, if_false, legible.readFound_body]
  rfl

end

theorem Memo.remembered_ok {α β : Type} [DecidableEq α] (memo : Memo α β) (a : α)
    (answer : α → Except InputError β) {b : β} (fresh : answer a = .ok b) :
    ∃ b', (memo.remembered a answer).1 = .ok b' := by
  unfold remembered
  rw [fresh]
  cases memo.known? a with
  | none => exact ⟨b, rfl⟩
  | some b' => exact ⟨b', rfl⟩

namespace Resolver

/-- A computation over a resolver ends without an error, whatever is remembered of the document. -/
def Succeeds (document : Value) {α : Type} (x : Lookups α) : Prop :=
  ∀ r : Resolver, r.document = document → ∃ a, (x r).1 = .ok a ∧ (x r).2.document = document

/-- Computations that end without an error, one after the other; what they are compared with plays no
part. -/
def succeeding (document : Value) : Simulation Lookups Id where
  answers x _ := Succeeds document x
  return_answers a _ same := ⟨a, rfl, same⟩
  then_answers {α β x y f g} first next r same := by
    obtain ⟨a, given, same'⟩ := first r same
    have step : (x >>= f) r = ExceptT.bindCont f (x r).1 (x r).2 := rfl
    rw [step, given]
    exact next a _ same'

section

variable {document : Value} (legible : Legible document)
include legible

theorem resolve_succeeds (room : Nat) (method path : String) :
    Succeeds document (resolve room method path) := by
  rintro r rfl
  obtain ⟨node, given⟩ := Memo.remembered_ok r.bodies (lowerCase method, path)
    (fun key => readFound room (rawBody? r.document key.1 key.2))
    (legible.readFound_body room method path)
  exact ⟨node, given, rfl⟩

theorem lookupRef_succeeds (room : Nat) (ref : String) : Succeeds document (lookupRef room ref) := by
  rintro r rfl
  obtain ⟨node, given⟩ := Memo.remembered_ok r.named ref
    (fun ref => readFound room (rawRef? r.document ref)) (legible.readFound_ref room ref)
  exact ⟨node, given, rfl⟩

theorem target_succeeds (room : Nat) (method path : String) :
    Succeeds document (target room method path) := by
  unfold target
  split
  · exact fun r same => ⟨none, rfl, same⟩
  · have resolved : (succeeding document).answers (resolve room method path) (pure none : Id _) :=
      resolve_succeeds legible room method path
    exact (succeeding document).then_answers (g := fun _ => pure none) resolved fun node =>
      fun r same => ⟨node.map .node, rfl, same⟩

end

/-- A text is checked without an error where the schema for it is found without one. -/
theorem checkText_succeeds {document : Option Value} (legible : ∀ spec ∈ document, Legible spec)
    {target : Lookups (Option Target)} (found : Succeeds (document.getD .null) target) (text : List Char)
    (room : Nat) :
    Succeeds (document.getD .null) (checkText text target (fun k => document.map (references k)) room) := by
  have mirrors : (succeeding (document.getD .null)).MirrorsDown (fun k => document.map (references k))
      (fun k => document.map (Spec.references k)) room (Json.parse text).2.callDepth := by
    intro k _ _
    cases document with
    | none => exact .none
    | some spec => exact .some fun ref => lookupRef_succeeds (legible spec rfl) k ref
  have target_found : (succeeding (document.getD .null)).answers target (pure none : Id (Option Target)) :=
    found
  exact Simulation.checkText_answers target_found mirrors

theorem check_succeeds {document : Value} (legible : Legible document) (room : Nat)
    (method path : String) (text : List Char) : Succeeds document (check room method path text) := by
  rintro r rfl
  have all : ∀ spec ∈ some r.document, Legible spec := by simpa using legible
  exact checkText_succeeds all (target_succeeds legible room method path) text room r rfl

end Resolver

end PayloadCheck.Spec

namespace PayloadCheck.Schema

open Spec

/-- Computations that may end with an error, where none does. -/
def Simulation.faultless : Simulation (Except InputError) Id where
  answers x y := x = .ok (Id.run y)
  return_answers _ := rfl
  then_answers {α β x y f g} first next := by
    rw [first]
    exact next (Id.run y)

theorem Simulation.faultless_mirrors {document : Option Json.Value}
    (legible : ∀ spec ∈ document, Legible spec) (room depth : Nat) :
    faultless.MirrorsDown (steady (document.map (tryReferences room)))
      (steady (document.map (references room))) room depth := by
  intro k _ _
  cases document with
  | none => exact .none
  | some spec => exact .some (Legible.readFound_ref (legible spec rfl) room)

end PayloadCheck.Schema
