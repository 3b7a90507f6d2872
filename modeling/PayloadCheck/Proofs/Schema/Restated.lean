import Mathlib.Data.List.Nodup
import Mathlib.Tactic.Tauto
import PayloadCheck.Proofs.Schema.RoundTrip
import PayloadCheck.Room

namespace PayloadCheck

open Json

namespace Schema.Node

mutual

/-- Every keyword that is present has the shape that it should have, at all depths. -/
inductive WellShaped : Value → Prop
  | obj {members : List (String × Value)} :
      (∀ member ∈ members, WellShapedMember member.1 member.2) → WellShaped (.obj members)

inductive WellShapedMember : String → Value → Prop
  | type {t : String} : WellShapedMember "type" (.str t)
  | properties {entries : List (String × Value)} :
      (∀ entry ∈ entries, WellShaped entry.2) → WellShapedMember "properties" (.obj entries)
  | required {listed : List String} : WellShapedMember "required" (.arr (listed.map .str))
  | items {v : Value} : WellShaped v → WellShapedMember "items" v
  | nullable {b : Bool} : WellShapedMember "nullable" (.bool b)
  | ref {r : String} : WellShapedMember "$ref" (.str r)
  | extra {name : String} {v : Value} : name ∉ keywords → WellShapedMember name v

end

/-- The members that say what is so without them. -/
def IsDefault (name : String) (v : Value) : Prop :=
  (name = "nullable" ∧ v = .bool false) ∨ (name = "required" ∧ v = .arr [])

mutual

/-- The same schema up to the order of keywords: at each depth defaults are gone, a name is required
once only, and all else is as it was, the other members and the properties in their order. -/
inductive Restates : Value → Value → Prop
  | obj {members kept stated : List (String × Value)} :
      RestateMembers members kept → kept.Perm stated → extraMembers stated = extraMembers members →
      Restates (.obj members) (.obj stated)

inductive RestateMembers : List (String × Value) → List (String × Value) → Prop
  | nil : RestateMembers [] []
  | drop {name : String} {v : Value} {members kept : List (String × Value)} :
      IsDefault name v → RestateMembers members kept → RestateMembers ((name, v) :: members) kept
  | keep {name : String} {v w : Value} {members kept : List (String × Value)} :
      ¬ IsDefault name v → RestatesMember name v w → RestateMembers members kept →
      RestateMembers ((name, v) :: members) ((name, w) :: kept)

inductive RestatesMember : String → Value → Value → Prop
  | properties {entries stated : List (String × Value)} :
      RestateEntries entries stated → RestatesMember "properties" (.obj entries) (.obj stated)
  | required {listed : List String} :
      RestatesMember "required" (.arr (listed.map .str)) (.arr (listed.eraseDups.map .str))
  | items {v w : Value} : Restates v w → RestatesMember "items" v w
  | same {name : String} {v : Value} :
      name ∉ ["properties", "required", "items"] → RestatesMember name v v

inductive RestateEntries : List (String × Value) → List (String × Value) → Prop
  | nil : RestateEntries [] []
  | cons {name : String} {v w : Value} {entries stated : List (String × Value)} :
      Restates v w → RestateEntries entries stated →
      RestateEntries ((name, v) :: entries) ((name, w) :: stated)

end

theorem Restores.mem_written {members : List (String × Value)} (once : (members.map (·.1)).Nodup)
    {name : String} {v w : Value} (held : (name, v) ∈ members) (restores : Restores name v w) :
    (name, w) ∈ (ofMembers members).written := by
  have found := lookup?_of_mem once held
  rw [ofMembers_eq]
  simp only [written, List.mem_append, mem_optional]
  cases restores with
  | type => simp [found, Value.str?]
  | properties => simp [found, properties?, entryValues_eq, ofEntries_eq, restored]
  | required demanded => simp [found, demanded]
  | items => simp [found, restored, ofValue?]
  | nullable => simp [found, Value.isTrue]
  | ref => simp [found, Value.str?]
  | extra other => simp [extraMembers, held, other]

/-- So many schemas, each of the elements of the one before. -/
def nestedItems : Nat → Value
  | 0 => .obj []
  | n + 1 => .obj [("items", nestedItems n)]

theorem calls_nestedItems (n : Nat) : calls (nestedItems n) = n + 1 := by
  induction n with
  | zero => rfl
  | succ n ih =>
    simp only [nestedItems, calls, callsOfMembers, if_true, ih]
    omega

end Schema.Node

end PayloadCheck
