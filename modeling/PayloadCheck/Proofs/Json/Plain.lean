import Mathlib.Data.List.Basic
import PayloadCheck.Json.Finite
import PayloadCheck.Json.Print
import PayloadCheck.Proofs.Json.LongInteger

namespace PayloadCheck.Json

open Number

namespace Value

theorem sizeOf_lt_of_mem_children {v w : Value} (inside : w ∈ v.children) : sizeOf w < sizeOf v := by
  cases v with
  | arr elements =>
    have smaller : sizeOf w < sizeOf elements := List.sizeOf_lt_of_mem inside
    simp only [arr.sizeOf_spec]
    omega
  | obj members =>
    obtain ⟨⟨name, value⟩, among, rfl⟩ := List.mem_map.mp inside
    have smaller := List.sizeOf_lt_of_mem among
    simp only [obj.sizeOf_spec, Prod.mk.sizeOf_spec] at *
    omega
  | _ => exact nomatch inside

theorem mem_children_of_get? {v w : Value} {name : String} (found : v.get? name = some w) :
    w ∈ v.children := by
  cases v with
  | obj members => exact List.mem_map_of_mem (f := (·.2)) (mem_of_lookup? found)
  | _ => exact nomatch found

/-- What passes from the values inside a value, and those inside them, to the value holds of all. -/
theorem induct {p : Value → Prop} (step : ∀ v, (∀ w ∈ v.children, p w ∧ ∀ x ∈ w.children, p x) → p v)
    (v : Value) : p v := by
  refine step v fun w inside => ?_
  have smaller := sizeOf_lt_of_mem_children inside
  refine ⟨induct step w, fun x further => ?_⟩
  have smallest := sizeOf_lt_of_mem_children further
  exact induct step x
termination_by sizeOf v

/-- A value is another one, or the other one stands in it at some depth. -/
inductive Holds : Value → Value → Prop
  | here {v : Value} : Holds v v
  | inside {v w x : Value} : w ∈ v.children → Holds w x → Holds v x

theorem areFinite_iff {vs : List Value} : areFinite vs = true ↔ ∀ v ∈ vs, v.isFinite = true := by
  induction vs with
  | nil => simp [areFinite]
  | cons v vs ih => simp [areFinite, ih]

theorem haveFinite_iff {members : List (String × Value)} :
    haveFinite members = true ↔ ∀ member ∈ members, member.2.isFinite = true := by
  induction members with
  | nil => simp [haveFinite]
  | cons member rest ih => simp [haveFinite, ih]

theorem areWhole_iff {vs : List Value} : areWhole vs = true ↔ ∀ v ∈ vs, v.isWhole = true := by
  induction vs with
  | nil => simp [areWhole]
  | cons v vs ih => simp [areWhole, ih]

theorem haveWhole_iff {members : List (String × Value)} :
    haveWhole members = true ↔
      ∀ member ∈ members, Text.isWhole member.1 = true ∧ member.2.isWhole = true := by
  induction members with
  | nil => simp [haveWhole]
  | cons member rest ih => simp [haveWhole, ih]

theorem holds_iff {v x : Value} : v.Holds x ↔ v = x ∨ ∃ w ∈ v.children, w.Holds x := by
  constructor
  · rintro (_ | ⟨among, held⟩)
    · exact Or.inl rfl
    · exact Or.inr ⟨_, among, held⟩
  · rintro (rfl | ⟨w, among, held⟩)
    · exact .here
    · exact .inside among held

theorem holds_arr {vs : List Value} {x : Binary64} :
    (arr vs).Holds (.float x) ↔ ∃ v ∈ vs, v.Holds (.float x) := by
  rw [holds_iff]
  exact or_iff_right nofun

theorem holds_obj {members : List (String × Value)} {x : Binary64} :
    (obj members).Holds (.float x) ↔ ∃ member ∈ members, member.2.Holds (.float x) := by
  rw [holds_iff, or_iff_right nofun]
  constructor
  · rintro ⟨w, among, held⟩
    obtain ⟨member, listed, rfl⟩ := List.mem_map.mp among
    exact ⟨member, listed, held⟩
  · rintro ⟨member, listed, held⟩
    exact ⟨member.2, List.mem_map_of_mem listed, held⟩

theorem not_holds_str {s : String} {x : Binary64} : ¬ (str s).Holds (.float x) := by
  rw [holds_iff, or_iff_right nofun]
  exact fun ⟨_, inside, _⟩ => nomatch inside

theorem isFinite_iff (v : Value) : v.isFinite = true ↔ ∀ x, v.Holds (.float x) → isFiniteNumber x = true := by
  induction v using Value.induct with
  | step v ih =>
    cases v with
    | float x =>
      constructor
      · rintro finite y (_ | ⟨⟨⟩, _⟩)
        exact finite
      · exact fun each => each x .here
    | arr vs =>
      rw [isFinite, areFinite_iff]
      constructor
      · intro each x held
        obtain ⟨w, among, inner⟩ := holds_arr.mp held
        exact (ih w among).1.mp (each w among) x inner
      · exact fun each w among => (ih w among).1.mpr fun x held => each x (.inside among held)
    | obj members =>
      rw [isFinite, haveFinite_iff]
      constructor
      · intro each x held
        obtain ⟨member, listed, inner⟩ := holds_obj.mp held
        exact (ih _ (List.mem_map_of_mem listed)).1.mp (each member listed) x inner
      · intro each member listed
        have among := List.mem_map_of_mem (f := (·.2)) listed
        exact (ih _ among).1.mpr fun x held => each x (.inside among held)
    | _ =>
      refine ⟨fun _ x held => ?_, fun _ => rfl⟩
      rcases held with _ | ⟨⟨⟩, _⟩

/-- A value that can be written down as it is. -/
structure IsPlain (v : Value) : Prop where
  finite : v.isFinite = true
  short : ¬ v.HoldsLong
  whole : v.isWhole = true

theorem isPlain_arr {vs : List Value} : (Value.arr vs).IsPlain ↔ ∀ v ∈ vs, v.IsPlain := by
  constructor
  · rintro ⟨finite, short, whole⟩ v among
    exact ⟨areFinite_iff.mp finite v among, fun held => short (holdsLong_arr.mpr ⟨v, among, held⟩),
      areWhole_iff.mp whole v among⟩
  · intro each
    refine ⟨areFinite_iff.mpr fun v among => (each v among).finite, fun held => ?_,
      areWhole_iff.mpr fun v among => (each v among).whole⟩
    obtain ⟨v, among, inner⟩ := holdsLong_arr.mp held
    exact (each v among).short inner

theorem isPlain_obj {members : List (String × Value)} :
    (Value.obj members).IsPlain ↔
      ∀ member ∈ members, Text.isWhole member.1 = true ∧ member.2.IsPlain := by
  constructor
  · rintro ⟨finite, short, whole⟩ member among
    obtain ⟨named, inner⟩ := haveWhole_iff.mp whole member among
    exact ⟨named, haveFinite_iff.mp finite member among,
      fun held => short (holdsLong_obj.mpr ⟨member, among, held⟩), inner⟩
  · intro each
    refine ⟨haveFinite_iff.mpr fun member among => (each member among).2.finite, fun held => ?_,
      haveWhole_iff.mpr fun member among => ⟨(each member among).1, (each member among).2.whole⟩⟩
    obtain ⟨member, among, inner⟩ := holdsLong_obj.mp held
    exact (each member among).2.short inner

theorem IsPlain.children {v : Value} (plain : v.IsPlain) : ∀ w ∈ v.children, w.IsPlain := by
  cases v with
  | arr vs => exact isPlain_arr.mp plain
  | obj members =>
    intro w inside
    obtain ⟨member, among, rfl⟩ := List.mem_map.mp inside
    exact (isPlain_obj.mp plain member among).2
  | _ => exact nofun

theorem sentName_eq {name : String} (whole : Text.isWhole name = true) : sentName name = name := by
  have each : ∀ c ∈ name.toList, Text.isUnpaired c = false := by simpa [Text.isWhole] using whole
  have kept : (name.toList.flatMap fun c =>
      if Text.isUnpaired c then ['\uFFFD', '\uFFFD', '\uFFFD'] else [c]) =
        name.toList.flatMap fun c => [c] :=
    List.flatMap_congr fun c among => by rw [each c among]; rfl
  rw [sentName, kept, List.flatMap_singleton', String.ofList_toList]

mutual

/-- A value whose numbers are finite and whose names consist of characters is sent as it is. -/
theorem sent_eq (v : Value) (finite : v.isFinite = true) (whole : v.isWhole = true) : v.sent = v := by
  cases v with
  | float x => exact if_pos finite
  | arr vs =>
    exact congrArg Value.arr (sentElements_eq vs (areFinite_iff.mp finite) (areWhole_iff.mp whole))
  | obj members =>
    exact congrArg Value.obj
      (sentMembers_eq members (haveFinite_iff.mp finite) (haveWhole_iff.mp whole))
  | _ => rfl

theorem sentElements_eq (vs : List Value) (finite : ∀ v ∈ vs, v.isFinite = true)
    (whole : ∀ v ∈ vs, v.isWhole = true) : sentElements vs = vs := by
  cases vs with
  | nil => rfl
  | cons v vs =>
    obtain ⟨first, others⟩ := List.forall_mem_cons.mp finite
    obtain ⟨text, texts⟩ := List.forall_mem_cons.mp whole
    rw [sentElements, sent_eq v first text, sentElements_eq vs others texts]

theorem sentMembers_eq (members : List (String × Value))
    (finite : ∀ member ∈ members, member.2.isFinite = true)
    (whole : ∀ member ∈ members, Text.isWhole member.1 = true ∧ member.2.isWhole = true) :
    sentMembers members = members := by
  cases members with
  | nil => rfl
  | cons member rest =>
    obtain ⟨name, v⟩ := member
    obtain ⟨first, others⟩ := List.forall_mem_cons.mp finite
    obtain ⟨⟨named, text⟩, texts⟩ := List.forall_mem_cons.mp whole
    rw [sentMembers, sentName_eq named, sent_eq v first text, sentMembers_eq rest others texts]

end

end Value

mutual

/-- A value is written unless it holds an integer with too many digits. -/
theorem render?_eq_none (level : Nat) (v : Value) : render? level v = none ↔ v.HoldsLong := by
  cases v with
  | int n =>
    simp only [render?, Option.map_eq_none_iff, text?_eq_none, Value.holdsLong_int]
  | arr vs =>
    simp only [render?, Option.map_eq_none_iff, renderElements?_eq_none (level + 1) vs,
      Value.holdsLong_arr]
  | obj members =>
    simp only [render?, Option.map_eq_none_iff, renderMembers?_eq_none (level + 1) members,
      Value.holdsLong_obj]
  | _ => exact ⟨fun written => by simp [render?] at written, fun held => nomatch held⟩

theorem renderElements?_eq_none (level : Nat) (vs : List Value) :
    renderElements? level vs = none ↔ ∃ v ∈ vs, v.HoldsLong := by
  cases vs with
  | nil => simp [renderElements?]
  | cons v vs =>
    simp only [renderElements?, List.mem_cons, exists_eq_or_imp, ← render?_eq_none level v,
      ← renderElements?_eq_none level vs]
    cases render? level v <;> cases renderElements? level vs <;> simp

theorem renderMembers?_eq_none (level : Nat) (members : List (String × Value)) :
    renderMembers? level members = none ↔ ∃ member ∈ members, member.2.HoldsLong := by
  cases members with
  | nil => simp [renderMembers?]
  | cons member rest =>
    obtain ⟨name, v⟩ := member
    simp only [renderMembers?, List.mem_cons, exists_eq_or_imp, ← render?_eq_none level v,
      ← renderMembers?_eq_none level rest]
    cases render? level v <;> cases renderMembers? level rest <;> simp

end

theorem block_head (opening closing : Char) (level : Nat) (items : List (List Char)) :
    (block opening closing level items).head? = some opening := by
  cases items <;> rfl

/-- The text of an object begins with a curly bracket. -/
theorem render?_obj_head {level : Nat} {members : List (String × Value)} {text : List Char}
    (written : render? level (.obj members) = some text) : text.head? = some '\x7b' := by
  obtain ⟨items, _, rfl⟩ := Option.map_eq_some_iff.mp written
  exact block_head _ _ _ _

end PayloadCheck.Json
