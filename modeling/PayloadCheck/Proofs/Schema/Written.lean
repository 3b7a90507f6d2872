import Mathlib.Data.List.Induction
import PayloadCheck.Proofs.Json.Plain
import PayloadCheck.Spec.Document

namespace PayloadCheck

open Json Schema

namespace Schema.Node

/-- The keywords that carry meaning. -/
def keywords : List String := ["type", "properties", "required", "items", "nullable", "$ref"]

/-- The members of an object that are no keywords. -/
def extraMembers (members : List (String × Value)) : List (String × Value) :=
  members.filter (·.1 ∉ keywords)

theorem extraMembers_extra (members : List (String × Value)) :
    ∀ member ∈ extraMembers members, member.1 ∉ keywords :=
  fun _ held => of_decide_eq_true (List.mem_filter.mp held).2

/-- A schema is read by looking its keywords up. -/
theorem ofMembers_eq (members : List (String × Value)) :
    ofMembers members =
      { type := (lookup? "type" members).bind Value.str?
        properties := (lookup? "properties" members).bind properties?
        required := ((lookup? "required" members).map names).getD []
        items := (lookup? "items" members).bind ofValue?
        nullable := ((lookup? "nullable" members).map Value.isTrue).getD false
        ref := (lookup? "$ref" members).bind Value.str?
        extras := extraMembers members } := by
  induction members with
  | nil => rfl
  | cons member rest ih =>
    obtain ⟨key, v⟩ := member
    rw [ofMembers, ih]
    by_cases known : key ∈ keywords
    · simp only [keywords, List.mem_cons, List.not_mem_nil, or_false] at known
      rcases known with rfl | rfl | rfl | rfl | rfl | rfl <;>
        simp [withKeyword, lookup?, extraMembers, keywords]
    · have other : ∀ keyword ∈ keywords, key ≠ keyword := fun keyword among same => known (same ▸ among)
      simp [keywords] at other
      simp [withKeyword, lookup?, extraMembers, keywords, other]

theorem ofEntries_eq (entries : List (String × Value)) :
    ofEntries entries = entries.map fun entry => (entry.1, (ofValue? entry.2).getD empty) := by
  induction entries with
  | nil => rfl
  | cons entry rest ih => rw [ofEntries, ih, List.map_cons]

/-- A member, if there is a value for it. -/
def optional (name : String) (v : Option Value) : List (String × Value) := v.toList.map (name, ·)

theorem mem_optional {name : String} {v : Option Value} {member : String × Value} :
    member ∈ optional name v ↔ member.1 = name ∧ v = some member.2 := by
  obtain ⟨key, w⟩ := member
  cases v with
  | none => simp [optional]
  | some u =>
    simp only [optional, Option.toList_some, List.map_cons, List.map_nil, List.mem_singleton,
      Prod.mk.injEq, Option.some.injEq, eq_comm]

theorem entryValues_eq (entries : List (String × Node)) :
    entryValues entries = entries.map fun entry => (entry.1, entry.2.toValue) := by
  induction entries with
  | nil => rfl
  | cons entry rest ih => rw [entryValues, ih, List.map_cons]

/-- The members of the object that describes a schema. -/
def written (n : Node) : List (String × Value) :=
  optional "type" (n.type.map .str) ++
    (optional "properties" (n.properties.map fun entries => .obj (entryValues entries)) ++
      (optional "required" (if n.required = [] then none else some (.arr (n.required.map .str))) ++
        (optional "items" (n.items.map toValue) ++
          (optional "nullable" (if n.nullable then some (.bool true) else none) ++
            (optional "$ref" (n.ref.map .str) ++ n.extras)))))

theorem toValue_eq (n : Node) : n.toValue = .obj n.written := by
  obtain ⟨type, properties, required, items, nullable, ref, extras⟩ := n
  rw [toValue.eq_def, written]
  cases type <;> cases properties <;> cases required <;> cases items <;> cases nullable <;> cases ref <;>
    rfl

theorem write?_eq_some {n : Node} {w : Value} (told : n.write? = some w) : w = n.toValue := by
  unfold write? at told
  split at told
  · exact nomatch told
  · exact (Option.some.inj told).symm

/-- What is written under the name of a property. One that is no schema carries no constraint. -/
def restored (v : Value) : Value := ((ofValue? v).getD empty).toValue

/-- What a member comes back as: under its name, what is written for what was read. -/
inductive Restores : String → Value → Value → Prop
  | type {t : String} : Restores "type" (.str t) (.str t)
  | properties {entries : List (String × Value)} :
      Restores "properties" (.obj entries) (.obj (entries.map fun entry => (entry.1, restored entry.2)))
  | required {v : Value} : names v ≠ [] → Restores "required" v (.arr ((names v).map .str))
  | items {members : List (String × Value)} :
      Restores "items" (.obj members) (restored (.obj members))
  | nullable : Restores "nullable" (.bool true) (.bool true)
  | ref {r : String} : Restores "$ref" (.str r) (.str r)
  | extra {name : String} {v : Value} : name ∉ keywords → Restores name v v

theorem str?_eq_some {v : Value} {s : String} : v.str? = some s ↔ v = .str s := by
  cases v <;> simp [Value.str?]

/-- What is written of a keyword that a text explains is the text that a member gives. -/
theorem mem_of_text {members : List (String × Value)} {key : String} {w : Value}
    (held : ((lookup? key members).bind Value.str?).map Value.str = some w) :
    ∃ t, (key, .str t) ∈ members ∧ w = .str t := by
  obtain ⟨t, told, rfl⟩ := Option.map_eq_some_iff.mp held
  obtain ⟨v, found, text⟩ := Option.bind_eq_some_iff.mp told
  cases str?_eq_some.mp text
  exact ⟨t, mem_of_lookup? found, rfl⟩

/-- Nothing is written that does not come from a member. -/
theorem mem_written {members : List (String × Value)} {name : String} {w : Value}
    (among : (name, w) ∈ (ofMembers members).written) :
    ∃ v, (name, v) ∈ members ∧ Restores name v w := by
  rw [ofMembers_eq] at among
  simp only [written, List.mem_append, mem_optional] at among
  rcases among with ⟨rfl, held⟩ | ⟨rfl, held⟩ | ⟨rfl, held⟩ | ⟨rfl, held⟩ | ⟨rfl, held⟩ | ⟨rfl, held⟩ | extra
  · obtain ⟨t, given, rfl⟩ := mem_of_text held
    exact ⟨_, given, .type⟩
  · obtain ⟨listed, told, rfl⟩ := Option.map_eq_some_iff.mp held
    obtain ⟨v, found, object⟩ := Option.bind_eq_some_iff.mp told
    cases v with
    | obj entries =>
      cases object
      rw [entryValues_eq, ofEntries_eq, List.map_map]
      exact ⟨_, mem_of_lookup? found, .properties⟩
    | _ => exact nomatch object
  · split at held
    · exact nomatch held
    · rename_i demanded
      cases found : lookup? "required" members with
      | none => simp [found] at demanded
      | some v =>
        rw [found, Option.map_some, Option.getD_some] at demanded held
        cases held
        exact ⟨v, mem_of_lookup? found, .required demanded⟩
  · obtain ⟨inner, told, rfl⟩ := Option.map_eq_some_iff.mp held
    obtain ⟨v, found, object⟩ := Option.bind_eq_some_iff.mp told
    cases v with
    | obj inside =>
      cases object
      exact ⟨_, mem_of_lookup? found, .items⟩
    | _ => exact nomatch object
  · split at held
    · rename_i allowed
      cases held
      cases found : lookup? "nullable" members with
      | none => simp [found] at allowed
      | some v =>
        rw [found, Option.map_some, Option.getD_some] at allowed
        cases v with
        | bool b =>
          cases allowed
          exact ⟨_, mem_of_lookup? found, .nullable⟩
        | _ => exact nomatch allowed
    · exact nomatch held
  · obtain ⟨r, given, rfl⟩ := mem_of_text held
    exact ⟨_, given, .ref⟩
  · obtain ⟨held, other⟩ := List.mem_filter.mp extra
    exact ⟨w, held, .extra (of_decide_eq_true other)⟩

theorem restored_obj (members : List (String × Value)) :
    restored (.obj members) = .obj (ofMembers members).written := by
  rw [restored, ofValue?, Option.getD_some, toValue_eq]

theorem toValue_of_read {v : Value} {n : Node} (read : ofValue? v = some n) : n.toValue = restored v := by
  rw [restored, read, Option.getD_some]

theorem mem_of_addName {known : List String} {name s : String} (among : s ∈ addName known name) :
    s ∈ known ∨ s = name := by
  unfold addName at among
  split at among
  · exact Or.inl among
  · simpa using among

theorem mem_of_foldl_addName {listed known : List String} {s : String}
    (among : s ∈ listed.foldl addName known) : s ∈ known ∨ s ∈ listed := by
  induction listed generalizing known with
  | nil => exact Or.inl among
  | cons name rest ih =>
    rcases ih among with old | later
    · rcases mem_of_addName old with known | rfl
      · exact Or.inl known
      · exact Or.inr List.mem_cons_self
    · exact Or.inr (List.mem_cons_of_mem _ later)

/-- Demanded names are elements of the array that demands them. -/
theorem mem_children_of_names {v : Value} {s : String} (demanded : s ∈ names v) :
    .str s ∈ v.children := by
  cases v with
  | arr vs =>
    rcases mem_of_foldl_addName demanded with absurd | listed
    · exact nomatch absurd
    · obtain ⟨w, among, text⟩ := List.mem_filterMap.mp listed
      exact str?_eq_some.mp text ▸ among
  | _ => exact nomatch demanded

/-- A value restores to one that can be written down if it can be written down itself. -/
theorem restored_isPlain (v : Value) : v.IsPlain → (restored v).IsPlain := by
  induction v using Value.induct with
  | step v ih =>
    intro plain
    cases v with
    | obj members =>
      rw [restored_obj, Value.isPlain_obj]
      rintro ⟨name, w⟩ among
      obtain ⟨v, held, restores⟩ := mem_written among
      obtain ⟨named, given⟩ := Value.isPlain_obj.mp plain _ held
      obtain ⟨itself, inside⟩ := ih v (List.mem_map_of_mem held)
      refine ⟨named, ?_⟩
      cases restores with
      | type | ref | nullable | extra => exact given
      | properties =>
        refine Value.isPlain_obj.mpr fun entry listed => ?_
        obtain ⟨⟨key, x⟩, held, rfl⟩ := List.mem_map.mp listed
        obtain ⟨key_whole, inner⟩ := Value.isPlain_obj.mp given _ held
        exact ⟨key_whole, inside x (List.mem_map_of_mem held) inner⟩
      | required _ =>
        refine Value.isPlain_arr.mpr fun x listed => ?_
        obtain ⟨s, demanded, rfl⟩ := List.mem_map.mp listed
        exact given.children _ (mem_children_of_names demanded)
      | items => exact itself given
    | _ => exact Value.isPlain_obj.mpr nofun

end Schema.Node

namespace Spec

theorem ofValue?_of_readSchema {room : Nat} {v : Value} {n : Node} (read : readSchema room v = some n) :
    Node.ofValue? v = some n := by
  unfold readSchema Node.read? at read
  split at read
  · exact nomatch read
  · exact read

/-- What the values inside a value inherit from it, and a reference alone from its text. -/
structure Inherited (p : Value → Prop) : Prop where
  children : ∀ {v : Value}, p v → ∀ w ∈ v.children, p w
  reference : ∀ {ref}, p (.str ref) → p (.obj [("$ref", .str ref)])

namespace Inherited

variable {p : Value → Prop} (inherited : Inherited p)
include inherited

theorem get? {v w : Value} (given : p v) {name : String} (found : v.get? name = some w) : p w :=
  inherited.children given w (Value.mem_children_of_get? found)

theorem dig? {v w : Value} (given : p v) {names : List String} (found : v.dig? names = some w) : p w := by
  induction names generalizing v with
  | nil =>
    cases found
    exact given
  | cons name rest ih =>
    obtain ⟨inner, here, further⟩ := Option.bind_eq_some_iff.mp found
    exact ih (inherited.get? given here) further

section

variable {document : Value} (given : p document)
include given

theorem rawRef? {ref : String} {v : Value} (found : Spec.rawRef? document ref = some v) : p v := by
  obtain ⟨⟨table, name⟩, _, further⟩ := Option.bind_eq_some_iff.mp found
  obtain ⟨entries, atTable, atName⟩ := Option.bind_eq_some_iff.mp further
  exact inherited.get? (inherited.dig? given atTable) atName

theorem media? {method path : String} {media : Value}
    (found : Spec.media? document method path = some media) : p media := by
  obtain ⟨content, atContent, further⟩ := Option.bind_eq_some_iff.mp found
  obtain ⟨type, _, atType⟩ := List.exists_of_findSome?_eq_some further
  exact inherited.get? (inherited.dig? given atContent) (Option.filter_eq_some_iff.mp atType).1

theorem stepRef {raw v : Value} (start : p raw) (stepped : Spec.stepRef document raw = some v) : p v := by
  unfold Spec.stepRef at stepped
  split at stepped
  · split at stepped
    · exact inherited.rawRef? given stepped
    · cases stepped
      exact start
  · cases stepped
    exact start

end

theorem mediaSchema? {media v : Value} (given : p media) (found : Spec.mediaSchema? media = some v) :
    p v := by
  unfold Spec.mediaSchema? at found
  split at found
  · rename_i inPlace
    cases found
    exact inherited.get? given inPlace
  · split at found
    · rename_i beside
      cases found
      exact inherited.reference (inherited.get? given beside)
    · rename_i beside
      cases found
      exact inherited.get? given beside
    · exact nomatch found

theorem rawBody? {document : Value} (given : p document) {method path : String} {v : Value}
    (found : Spec.rawBody? document method path = some v) : p v := by
  obtain ⟨raw, atRaw, step⟩ := Option.bind_eq_some_iff.mp found
  obtain ⟨media, atMedia, inMedia⟩ := Option.bind_eq_some_iff.mp atRaw
  have start := inherited.mediaSchema? (inherited.media? given atMedia) inMedia
  exact inherited.stepRef given start step

end Inherited

theorem inherited_isPlain : Inherited Value.IsPlain where
  children := Value.IsPlain.children
  reference text := by
    have named : Text.isWhole "$ref" = true := by decide
    exact Value.isPlain_obj.mpr (List.forall_mem_singleton.mpr ⟨named, text⟩)

end Spec

end PayloadCheck
