import Mathlib.Data.List.Forall2
import Mathlib.Data.Option.Basic
import PayloadCheck.Proofs.Schema.Comparison
import PayloadCheck.Proofs.Schema.Written

namespace PayloadCheck.Schema

open Json

/-- What one check finds, another finds too. A check that is cut off finds nothing to compare. -/
def Prolongs {α : Type} (x y : OptionT Id α) : Prop :=
  ∀ found, result? x = some found → result? y = some found

namespace Prolongs

theorem of_bounds {x y : Finding Id} (bounds : Comparison.equal.Bounds x y) : Prolongs x y := by
  intro found reached
  obtain ⟨_, reached', rfl⟩ := bounds found reached
  exact reached'

/-- Checks that prolong each other end alike, also where they are cut off. -/
theorem antisymm {α : Type} {x y : OptionT Id α} (forth : Prolongs x y) (back : Prolongs y x) :
    result? x = result? y := by
  cases found : result? x with
  | some a => exact (forth a found).symm
  | none =>
    cases other : result? y with
    | none => rfl
    | some b => exact nomatch found.symm.trans (back b other)

end Prolongs

theorem rel_cases {α β : Type} {r : α → β → Prop} {x : Option α} {y : Option β}
    (related : Option.Rel r x y) :
    x = none ∧ y = none ∨ ∃ a b, x = some a ∧ y = some b ∧ r a b := by
  cases related with
  | none => exact Or.inl ⟨rfl, rfl⟩
  | some inner => exact Or.inr ⟨_, _, rfl, rfl, inner⟩

/-- Two lists have the same names in the same order, and what stands behind them is related. -/
abbrev Paired {α β : Type} (R : α → β → Prop) : List (String × α) → List (String × β) → Prop :=
  List.Forall₂ fun p p' => p.1 = p'.1 ∧ R p.2 p'.2

theorem Entries.of_paired {Q : Comparison} {R : Node → Node → Prop} {entries entries' : List (String × Node)}
    (paired : Paired R entries entries') : Entries Q R entries entries' := by
  induction paired with
  | nil => exact .nil
  | @cons p p' _ _ pair _ ih =>
    obtain ⟨name, n⟩ := p
    obtain ⟨name', n'⟩ := p'
    obtain ⟨rfl, related⟩ := pair
    exact .kept related ih

/-- Two schemas ask for the same of a value itself, and the schemas right inside them are related. -/
structure SameLevel (R : Node → Node → Prop) (n n' : Node) : Prop where
  type : n.type = n'.type
  required : n.required = n'.required
  nullable : n.nullable = n'.nullable
  properties : Option.Rel (Paired R) n.properties n'.properties
  items : Option.Rel R n.items n'.items

namespace SameLevel

variable {R : Node → Node → Prop} {n n' : Node}

theorem self (reflexive : ∀ n, R n n) (n : Node) : SameLevel R n n where
  type := rfl
  required := rfl
  nullable := rfl
  properties := by
    cases n.properties with
    | none => exact .none
    | some entries => exact .some (List.forall₂_same.mpr fun p _ => ⟨rfl, reflexive p.2⟩)
  items := rel_self reflexive n.items

theorem swap (same : SameLevel R n n') : SameLevel (fun m m' => R m' m) n' n where
  type := same.type.symm
  required := same.required.symm
  nullable := same.nullable.symm
  properties := by
    rcases rel_cases same.properties with ⟨absent, absent'⟩ | ⟨listed, listed', given, given', pairs⟩
    · rw [absent, absent']
      exact .none
    · rw [given, given']
      exact .some (pairs.flip.imp fun p p' pair => ⟨pair.1.symm, pair.2⟩)
  items := rel_swap same.items

theorem properties_isSome (same : SameLevel R n n') : n.properties.isSome = n'.properties.isSome := by
  rcases rel_cases same.properties with ⟨absent, absent'⟩ | ⟨_, _, given, given', _⟩
  · rw [absent, absent']
  · rw [given, given', Option.isSome_some, Option.isSome_some]

theorem properties_getD (same : SameLevel R n n') :
    Paired R (n.properties.getD []) (n'.properties.getD []) := by
  rcases rel_cases same.properties with ⟨absent, absent'⟩ | ⟨_, _, given, given', pairs⟩
  · rw [absent, absent']
    exact .nil
  · rw [given, given']
    exact pairs

theorem level (Q : Comparison) (same : SameLevel R n n') : Level Q R n n' :=
  .of_entries same.type same.required same.nullable same.properties_isSome (.of_paired same.properties_getD)
    same.items

end SameLevel

/-- The schema that a value describes. One that is no object describes a schema that says nothing. -/
def Node.described (v : Value) : Node := (Node.ofValue? v).getD .empty

theorem ref_ofMembers (members : List (String × Value)) :
    (Node.ofMembers members).ref = (lookup? "$ref" members).bind Value.str? := by
  rw [Node.ofMembers_eq]

theorem ofEntries_paired {R : Node → Node → Prop} {entries entries' : List (String × Value)}
    (paired : Paired (fun v w => R (Node.described v) (Node.described w)) entries entries') :
    Paired R (Node.ofEntries entries) (Node.ofEntries entries') := by
  rw [Node.ofEntries_eq, Node.ofEntries_eq, Paired, List.forall₂_map_left_iff, List.forall₂_map_right_iff]
  exact paired

/-- Objects that differ only in the schemas nested in them describe schemas of the same level. -/
theorem sameLevel_ofMembers {R : Node → Node → Prop} {members members' : List (String × Value)}
    (kept : ∀ key, key ≠ "items" → key ≠ "properties" → lookup? key members = lookup? key members')
    (properties : Option.Rel (Paired R) ((lookup? "properties" members).bind Node.properties?)
      ((lookup? "properties" members').bind Node.properties?))
    (items : Option.Rel R ((lookup? "items" members).bind Node.ofValue?)
      ((lookup? "items" members').bind Node.ofValue?)) :
    SameLevel R (Node.ofMembers members) (Node.ofMembers members') := by
  have type := kept "type" (by decide) (by decide)
  have required := kept "required" (by decide) (by decide)
  have nullable := kept "nullable" (by decide) (by decide)
  rw [Node.ofMembers_eq, Node.ofMembers_eq, type, required, nullable]
  exact ⟨rfl, rfl, rfl, properties, items⟩

/-- Related schemas ask for the same at the end of their references, each looked up in a table of its
own. -/
def Resembling (references references' : Option (References Id)) (R : Node → Node → Prop) : Prop :=
  ∀ n n', R n n' → SameLevel R (Id.run (follow references n)) (Id.run (follow references' n'))

theorem Resembling.swap {references references' : Option (References Id)} {R : Node → Node → Prop}
    (alike : Resembling references references' R) :
    Resembling references' references fun n n' => R n' n :=
  fun n n' related => (alike n' n related).swap

/-- Where references lead to the same schemas, every schema resembles itself. -/
theorem resembling_self {references references' : Option (References Id)}
    (same : ∀ n, Id.run (follow references n) = Id.run (follow references' n)) :
    Resembling references references' Eq := by
  rintro n _ rfl
  rw [same n]
  exact SameLevel.self (fun _ => rfl) _

/-- Schemas with the same reference stand for themselves, or both stand for what it leads to. -/
theorem follow_cases (references : Option (References Id)) {n n' : Node} (same : n.ref = n'.ref) :
    Id.run (follow references n) = n ∧ Id.run (follow references n') = n' ∨
      Id.run (follow references n) = Id.run (follow references n') := by
  cases references with
  | none => exact Or.inl ⟨rfl, rfl⟩
  | some table =>
    simp only [follow, run_followFrom_succ, ← same]
    cases n.ref with
    | none => exact Or.inl ⟨rfl, rfl⟩
    | some ref =>
      simp only [List.not_mem_nil, if_false]
      cases table.lookup ref with
      | none => exact Or.inl ⟨rfl, rfl⟩
      | some target => exact Or.inr rfl

/-- Schemas that are side by side with the same reference stay side by side at its end. -/
theorem meets_of_ref {Q : Comparison} {R : Node → Node → Prop} (references : Option (References Id))
    (reflexive : ∀ n, R n n) (level : ∀ n n', R n n' → n.ref = n'.ref ∧ Level Q R n n') (n n' : Node)
    (related : R n n') : Level Q R (Id.run (follow references n)) (Id.run (follow references n')) := by
  obtain ⟨same, here⟩ := level n n' related
  rcases follow_cases references same with ⟨itself, itself'⟩ | ends
  · rwa [itself, itself']
  · rw [ends]
    exact (SameLevel.self reflexive _).level Q

theorem checkObject_prolongs {references references' : Option (References Id)} {R : Node → Node → Prop}
    (alike : Resembling references references' R) {room room' : Nat} (larger : room ≤ room') (taken : Nat)
    (members : List (String × Value)) {n n' : Node} (same : SameLevel R n n') :
    Prolongs (checkObject (steady references) room taken members n)
      (checkObject (steady references') room' taken members n') :=
  .of_bounds (checkObject_bounds (fun m m' related => (alike m m' related).level _) larger taken members
    (same.level _))

theorem Resembling.prolongs {references references' : Option (References Id)}
    {R : Node → Node → Prop} (alike : Resembling references references' R) {room room' : Nat}
    (larger : room ≤ room') (v : Value) {n n' : Node} (related : R n n') :
    Prolongs (violations (steady references) room v n) (violations (steady references') room' v n') :=
  .of_bounds (violations_bounds (fun m m' related => (alike m m' related).level _) larger v related)

section

variable (references : Option (References Id)) {R : Node → Node → Prop} (reflexive : ∀ n, R n n)
  (level : ∀ n n', R n n' → n.ref = n'.ref ∧ Level .equal R n n') {n n' : Node}
include reflexive level

theorem violations_prolongs (room : Nat) (related : R n n') (v : Value) :
    Prolongs (violations (steady references) room v n) (violations (steady references) room v n') :=
  .of_bounds (violations_bounds (meets_of_ref references reflexive level) (Nat.le_refl _) v related)

/-- Schemas with the same reference that ask for the same find the same wrong with a value, and are cut
off alike. -/
theorem violations_eq_of_level (room : Nat) (related : R n n') (v : Value) :
    result? (violations (steady references) room v n) =
      result? (violations (steady references) room v n') := by
  have back (m m' : Node) (other : R m' m) : m.ref = m'.ref ∧ Level .equal (fun m m' => R m' m) m m' :=
    ⟨(level m' m other).1.symm, (level m' m other).2.swap⟩
  exact (violations_prolongs references reflexive level room related v).antisymm
    (violations_prolongs references (R := fun m m' => R m' m) reflexive back room related v)

end

/-- A schema that says nothing finds nothing wrong. -/
theorem violations_empty {room : Nat} {v : Value} (fits : v.isObject = true → 0 < room)
    (references : Option (References Id)) :
    result? (violations (steady references) room v .empty) = some [] := by
  rw [violations, result?_bind, result?_lift, Option.bind_some, follow_of_no_ref rfl]
  cases v with
  | obj members =>
    obtain ⟨r, rfl⟩ := Nat.exists_eq_add_one.mpr (fits rfl)
    rfl
  | _ => rfl

theorem checkRaw_of_readable {room : Nat} {raw v : Value} (fits : v.isObject = true → 0 < room)
    (readable : Node.calls raw ≤ room) (references : Option (References Id)) :
    Id.run (checkRaw (steady references) room v raw) =
      reports (result? (violations (steady references) room v (Node.described raw))) := by
  rw [checkRaw, Node.read?, if_neg (Nat.not_lt.mpr readable), Node.described]
  cases Node.ofValue? raw with
  | some node => rfl
  | none =>
    rw [Option.getD_none, violations_empty fits]
    rfl

/-- Reading an object takes a call at least. -/
theorem Node.calls_obj_pos {room : Nat} {members : List (String × Value)}
    (readable : Node.calls (.obj members) ≤ room) : 0 < room := by
  rw [Node.calls] at readable
  omega

/-- Checks that are cut off alike or find the same report the same, once the schemas have been read. -/
theorem checkRaw_congr {room : Nat} {raw raw' v v' : Value} (readable : Node.calls raw ≤ room)
    (readable' : Node.calls raw' ≤ room) (references : Option (References Id))
    (same : result? (violations (steady references) room v (Node.described raw)) =
      result? (violations (steady references) room v' (Node.described raw'))) :
    Id.run (checkRaw (steady references) room v raw) =
      Id.run (checkRaw (steady references) room v' raw') := by
  rcases Nat.eq_zero_or_pos room with rfl | positive
  · have nothing {raw : Value} (w : Value) (readable : Node.calls raw ≤ 0) :
        Id.run (checkRaw (steady references) 0 w raw) = [] := by
      cases raw with
      | obj members => exact nomatch Node.calls_obj_pos readable
      | _ => rfl
    rw [nothing v readable, nothing v' readable']
  · rw [checkRaw_of_readable (fun _ => positive) readable, checkRaw_of_readable (fun _ => positive) readable',
      same]

end PayloadCheck.Schema
