import PayloadCheck.Proofs.Schema.Following
import PayloadCheck.Proofs.Schema.Report
import PayloadCheck.Proofs.Schema.Written

namespace PayloadCheck.Schema

open Json

/-- An object whose reference names another object of a document, and whose chain of references ends at a
schema without one. -/
structure Named (room : Nat) (document v w : Value) : Prop where
  refers : ∃ ref named, v.get? "$ref" = some (.str ref) ∧
    Spec.rawRef? document ref = some (.obj named) ∧ w = .obj named
  ends : ∃ last, Dereferenced (some (Spec.references room document)) (Node.described v) last ∧
    last.ref = none

mutual

/-- A schema in which some nested references are replaced by what they name. -/
inductive Inlines (room : Nat) (document : Value) : Value → Value → Prop
  | same (v : Value) : Inlines room document v v
  | obj {members inlined : List (String × Value)} :
      InlineMembers room document members inlined → Inlines room document (.obj members) (.obj inlined)

inductive InlineMembers (room : Nat) (document : Value) : List (String × Value) → List (String × Value) → Prop
  | nil : InlineMembers room document [] []
  | cons {name : String} {v w : Value} {members inlined : List (String × Value)} :
      InlinesMember room document name v w → InlineMembers room document members inlined →
      InlineMembers room document ((name, v) :: members) ((name, w) :: inlined)

inductive InlinesMember (room : Nat) (document : Value) : String → Value → Value → Prop
  | same {name : String} {v : Value} : InlinesMember room document name v v
  | items {v w : Value} : InlinesNested room document v w → InlinesMember room document "items" v w
  | properties {entries inlined : List (String × Value)} :
      InlineEntries room document entries inlined →
      InlinesMember room document "properties" (.obj entries) (.obj inlined)

inductive InlineEntries (room : Nat) (document : Value) : List (String × Value) → List (String × Value) → Prop
  | nil : InlineEntries room document [] []
  | cons {name : String} {v w : Value} {entries inlined : List (String × Value)} :
      InlinesNested room document v w → InlineEntries room document entries inlined →
      InlineEntries room document ((name, v) :: entries) ((name, w) :: inlined)

/-- A nested schema is replaced by what it names, or has some replaced inside. -/
inductive InlinesNested (room : Nat) (document : Value) : Value → Value → Prop
  | named {v w : Value} : Named room document v w → InlinesNested room document v w
  | inside {v w : Value} : Inlines room document v w → InlinesNested room document v w

end

variable {room : Nat} {document : Value}

theorem InlineMembers.lookup? {members inlined : List (String × Value)}
    (inlines : InlineMembers room document members inlined) (key : String) :
    Option.Rel (InlinesMember room document key) (lookup? key members) (lookup? key inlined) := by
  induction members generalizing inlined with
  | nil =>
    cases inlines
    exact .none
  | cons member rest ih =>
    obtain ⟨name, v⟩ := member
    cases inlines with
    | cons here behind =>
      by_cases same : name = key
      · subst same
        simpa [PayloadCheck.lookup?] using Option.Rel.some here
      · simpa [PayloadCheck.lookup?, same] using ih behind

theorem InlineEntries.pairs {entries inlined : List (String × Value)}
    (inlines : InlineEntries room document entries inlined) :
    Paired (InlinesNested room document) entries inlined := by
  induction entries generalizing inlined with
  | nil =>
    cases inlines
    exact .nil
  | cons entry rest ih =>
    cases inlines with
    | cons here behind => exact .cons ⟨rfl, here⟩ (ih behind)

theorem InlineMembers.self (members : List (String × Value)) :
    InlineMembers room document members members := by
  induction members with
  | nil => exact .nil
  | cons member rest ih => exact .cons .same ih

/-- Only nested schemas are replaced. -/
theorem InlinesMember.eq_of_other {name : String} {v w : Value}
    (inlines : InlinesMember room document name v w) (noItems : name ≠ "items")
    (noProperties : name ≠ "properties") : v = w := by
  cases inlines with
  | same => rfl
  | items => exact absurd rfl noItems
  | properties => exact absurd rfl noProperties

theorem InlineMembers.lookup?_eq {members inlined : List (String × Value)}
    (inlines : InlineMembers room document members inlined) (key : String) (noItems : key ≠ "items")
    (noProperties : key ≠ "properties") :
    PayloadCheck.lookup? key members = PayloadCheck.lookup? key inlined := by
  rcases rel_cases (inlines.lookup? key) with ⟨absent, absent'⟩ | ⟨v, w, found, found', here⟩
  · rw [absent, absent']
  · rw [found, found', here.eq_of_other noItems noProperties]

/-- The schemas that are described before and after. -/
inductive Inlined (room : Nat) (document : Value) : Node → Node → Prop
  | intro {v w : Value} : InlinesNested room document v w →
      Inlined room document (Node.described v) (Node.described w)

/-- An object stays an object. -/
theorem InlinesNested.read {v w : Value} (inlines : InlinesNested room document v w) :
    Option.Rel (Inlined room document) (Node.ofValue? v) (Node.ofValue? w) := by
  have described := Inlined.intro inlines
  cases inlines with
  | named names =>
    obtain ⟨ref, named, referred, _, rfl⟩ := names.refers
    cases v with
    | obj members => exact .some described
    | _ => exact nomatch referred
  | inside inlines =>
    cases inlines with
    | same =>
      cases v with
      | obj members => exact .some described
      | _ => exact .none
    | obj => exact .some described

theorem InlineEntries.read {entries inlined : List (String × Value)}
    (inlines : InlineEntries room document entries inlined) :
    Paired (Inlined room document) (Node.ofEntries entries) (Node.ofEntries inlined) :=
  ofEntries_paired (inlines.pairs.imp fun _ _ pair => ⟨pair.1, .intro pair.2⟩)

theorem InlineEntries.self (entries : List (String × Value)) :
    InlineEntries room document entries entries := by
  induction entries with
  | nil => exact .nil
  | cons entry rest ih => exact .cons (.inside (.same _)) ih

theorem InlinesMember.properties_read {name : String} {v w : Value}
    (inlines : InlinesMember room document name v w) (isProperties : name = "properties") :
    Option.Rel (Paired (Inlined room document)) (Node.properties? v) (Node.properties? w) := by
  cases inlines with
  | same =>
    cases v with
    | obj entries => exact .some (InlineEntries.self entries).read
    | _ => exact .none
  | items => exact absurd isProperties (by decide)
  | properties inlines => exact .some inlines.read

theorem InlinesMember.items_read {name : String} {v w : Value}
    (inlines : InlinesMember room document name v w) (isItems : name = "items") :
    Option.Rel (Inlined room document) (Node.ofValue? v) (Node.ofValue? w) := by
  cases inlines with
  | same => exact InlinesNested.read (.inside (.same v))
  | items inlines => exact inlines.read
  | properties => exact absurd isItems (by decide)

/-- What is said of a value itself stays, and so does the reference. -/
theorem InlineMembers.level {members inlined : List (String × Value)}
    (inlines : InlineMembers room document members inlined) :
    SameLevel (Inlined room document) (Node.ofMembers members) (Node.ofMembers inlined) ∧
      (Node.ofMembers members).ref = (Node.ofMembers inlined).ref := by
  refine ⟨sameLevel_ofMembers inlines.lookup?_eq ?_ ?_, ?_⟩
  · rcases rel_cases (inlines.lookup? "properties") with ⟨absent, absent'⟩ | ⟨v, w, found, found', here⟩
    · simpa only [absent, absent'] using .none
    · simpa only [found, found', Option.bind_some] using here.properties_read rfl
  · rcases rel_cases (inlines.lookup? "items") with ⟨absent, absent'⟩ | ⟨v, w, found, found', here⟩
    · simpa only [absent, absent'] using .none
    · simpa only [found, found', Option.bind_some] using here.items_read rfl
  · have same := inlines.lookup?_eq "$ref" (by decide) (by decide)
    rw [ref_ofMembers, ref_ofMembers, same]

theorem Inlines.level {v w : Value} (inlines : Inlines room document v w) :
    SameLevel (Inlined room document) (Node.described v) (Node.described w) ∧
      (Node.described v).ref = (Node.described w).ref := by
  cases inlines with
  | obj inlines => exact inlines.level
  | same =>
    cases v with
    | obj members => exact (InlineMembers.self members).level
    | _ => exact ⟨⟨rfl, rfl, rfl, .none, .none⟩, rfl⟩

end PayloadCheck.Schema
