import Mathlib.Data.List.Induction
import PayloadCheck.Proofs.Document.Height
import PayloadCheck.Proofs.Schema.Faults
import PayloadCheck.Proofs.Schema.Written

namespace PayloadCheck

open Json

namespace Schema.Node

/-- Each name is kept at its first place. -/
theorem foldl_addName (listed : List String) : listed.foldl addName [] = listed.eraseDups := by
  induction listed using List.reverseRecOn with
  | nil => rfl
  | append_singleton listed name ih =>
    rw [List.foldl_append, ih, List.eraseDups_append]
    by_cases known : name ∈ listed <;>
      simp [addName, List.removeAll, List.eraseDups_cons, known]

theorem nodup_eraseDups (listed : List String) : listed.eraseDups.Nodup := by
  have nodup := nodup_names_distinct (listed.map fun name => (name, ()))
  rw [names_distinct, List.map_map] at nodup
  simpa [Function.comp_def] using nodup

theorem names_nodup (v : Value) : (names v).Nodup := by
  cases v with
  | arr values =>
    rw [names, foldl_addName]
    exact nodup_eraseDups _
  | _ => exact .nil

theorem filterMap_str? (listed : List String) : (listed.map Value.str).filterMap Value.str? = listed := by
  rw [List.filterMap_map]
  exact List.filterMap_some

theorem names_strings (listed : List String) : names (.arr (listed.map .str)) = listed.eraseDups := by
  rw [names, filterMap_str?, foldl_addName]

theorem lookup?_optional (name other : String) (v : Option Value) :
    lookup? other (optional name v) = if name = other then v else none := by
  cases v <;> simp [optional, lookup?]

theorem extraMembers_append (before after : List (String × Value)) :
    extraMembers (before ++ after) = extraMembers before ++ extraMembers after :=
  List.filter_append before after

theorem extraMembers_optional {name : String} (known : name ∈ keywords) (v : Option Value) :
    extraMembers (optional name v) = [] := by
  cases v <;> simp [optional, extraMembers, known]

/-- A schema as it comes out of reading: no name is required twice, and no keyword is among the rest. -/
inductive Normal : Node → Prop
  | intro {n : Node} :
      n.required.Nodup → (∀ member ∈ n.extras, member.1 ∉ keywords) →
      (∀ entries, n.properties = some entries → ∀ entry ∈ entries, Normal entry.2) →
      (∀ inner, n.items = some inner → Normal inner) → Normal n

theorem empty_normal : empty.Normal := .intro .nil nofun nofun nofun

theorem extraMembers_self {members : List (String × Value)}
    (extra : ∀ member ∈ members, member.1 ∉ keywords) : extraMembers members = members :=
  List.filter_eq_self.mpr fun member among => decide_eq_true (extra member among)

theorem lookup?_extra {members : List (String × Value)} (extra : ∀ member ∈ members, member.1 ∉ keywords)
    {name : String} (known : name ∈ keywords) : lookup? name members = none :=
  lookup?_eq_none.mpr fun member among same => extra member among (same ▸ known)

section

variable {n : Node} (extra : ∀ member ∈ n.extras, member.1 ∉ keywords)
include extra

/-- What the keywords of a written schema say, and what else it has. -/
theorem ofMembers_written :
    ofMembers n.written =
      { n with
        properties := n.properties.map fun entries => ofEntries (entryValues entries)
        required := n.required.eraseDups
        items := n.items.bind fun inner => ofValue? inner.toValue } := by
  obtain ⟨type, properties, required, items, nullable, ref, extras⟩ := n
  have absent : ∀ name ∈ keywords, lookup? name extras = none := fun name known =>
    lookup?_extra extra known
  simp only [keywords, List.forall_mem_cons] at absent
  have rest : extraMembers extras = extras := extraMembers_self extra
  have hidden (name : String) (known : name ∈ keywords := by decide) := extraMembers_optional known
  rw [ofMembers_eq]
  simp only [written, lookup?_append, lookup?_optional, absent, extraMembers_append,
    hidden "type", hidden "properties", hidden "required", hidden "items", hidden "nullable",
    hidden "$ref", rest]
  congr 1
  · cases type <;> simp [Value.str?]
  · cases properties <;> simp [properties?]
  · cases required <;> simp [← names_strings]
  · cases items <;> simp
  · cases nullable <;> simp [Value.isTrue]
  · cases ref <;> simp [Value.str?]

end

theorem ofValue?_toValue (n : Node) : ofValue? n.toValue = some (ofMembers n.written) := by
  rw [toValue_eq, ofValue?]

/-- What is written back of a schema that was read is read as the same schema. -/
theorem Normal.ofMembers_written {n : Node} (normal : n.Normal) : ofMembers n.written = n := by
  induction normal with
  | @intro n required extra _ _ properties items =>
    have entries : (n.properties.map fun entries => ofEntries (entryValues entries)) = n.properties := by
      cases listed : n.properties with
      | none => rfl
      | some entries =>
        have each : ∀ entry ∈ entries, (entry.1, (ofValue? entry.2.toValue).getD empty) = entry := by
          intro entry among
          rw [ofValue?_toValue, Option.getD_some, properties entries listed entry among]
        rw [Option.map_some, entryValues_eq, ofEntries_eq, List.map_map]
        exact congrArg some ((List.map_congr_left each).trans (List.map_id' entries))
    have inner : (n.items.bind fun inner => ofValue? inner.toValue) = n.items := by
      cases given : n.items with
      | none => rfl
      | some inner => rw [Option.bind_some, ofValue?_toValue, items inner given]
    rw [Node.ofMembers_written extra, entries, inner, eraseDups_of_nodup required]
    cases n
    rfl

mutual

theorem ofValue?_normal (v : Value) {n : Node} (read : ofValue? v = some n) : n.Normal := by
  cases v with
  | obj members =>
    cases read
    exact ofMembers_normal members
  | _ => exact nomatch read

theorem ofMembers_normal (members : List (String × Value)) : (ofMembers members).Normal := by
  cases members with
  | nil => exact empty_normal
  | cons member rest =>
    obtain ⟨key, v⟩ := member
    obtain ⟨required, extra, properties, items⟩ := ofMembers_normal rest
    rw [ofMembers]
    split_ifs with atProperties atItems
    · exact .intro required extra (fun entries read => properties?_normal v read) items
    · exact .intro required extra properties fun inner read => ofValue?_normal v read
    · unfold Node.withKeyword
      split_ifs with atType atRequired atNullable atRef
      · exact .intro required extra properties items
      · exact .intro (names_nodup v) extra properties items
      · exact .intro required extra properties items
      · exact .intro required extra properties items
      · refine .intro required (List.forall_mem_cons.mpr ⟨?_, extra⟩) properties items
        simp [keywords, *]

theorem properties?_normal (v : Value) {entries : List (String × Node)}
    (read : properties? v = some entries) : ∀ entry ∈ entries, entry.2.Normal := by
  cases v with
  | obj members =>
    cases read
    exact ofEntries_normal members
  | _ => exact nomatch read

theorem ofEntries_normal (members : List (String × Value)) :
    ∀ entry ∈ ofEntries members, entry.2.Normal := by
  cases members with
  | nil => exact nofun
  | cons member rest =>
    obtain ⟨name, v⟩ := member
    refine List.forall_mem_cons.mpr ⟨?_, ofEntries_normal rest⟩
    cases read : ofValue? v with
    | none => exact empty_normal
    | some n => exact ofValue?_normal v read

end

/-- What is written of a schema that was read is read as that schema. -/
theorem ofValue?_toValue_of_read {v : Value} {n : Node} (read : ofValue? v = some n) :
    ofValue? n.toValue = some n := by
  rw [ofValue?_toValue, (ofValue?_normal v read).ofMembers_written]

/-- Reading a schema takes no more calls than the value is high. -/
theorem calls_le_height (v : Value) : calls v ≤ v.height := by
  induction v using Value.induct with
  | step v ih =>
    cases v with
    | obj members =>
      obtain ⟨d, level⟩ := Nat.exists_eq_add_one.mpr (Value.obj members).height_pos
      have bound := Value.height_le.mp (Nat.le_of_eq level)
      have each : callsOfMembers members ≤ d := by
        refine callsOfMembers_le.mpr fun member held => ?_
        have child := List.mem_map_of_mem (f := (·.2)) held
        obtain ⟨itself, further⟩ := ih member.2 child
        refine ⟨fun _ => Nat.le_trans itself (bound _ child), fun _ => ?_⟩
        cases inner : member.2 with
        | obj entries =>
          rw [inner] at further child
          obtain ⟨e, below⟩ := Nat.exists_eq_add_one.mpr (Value.obj entries).height_pos
          have deepest := Value.height_le.mp (Nat.le_of_eq below)
          have list : callsOfList entries ≤ e := callsOfList_le.mpr fun entry among => by
            have grandchild := List.mem_map_of_mem (f := (·.2)) among
            exact Nat.le_trans (further entry.2 grandchild) (deepest entry.2 grandchild)
          have deeper := bound _ child
          simp only [callsOfEntries]
          omega
        | _ => exact Nat.zero_le d
      rw [level, calls]
      omega
    | _ => exact Nat.zero_le _

theorem keywords_whole : ∀ keyword ∈ keywords, Text.isWhole keyword = true := by decide

/-- What is written back has no name that is no text, if what was read had none. -/
theorem hasStrayName_restored (v : Value) : hasStrayName v = false → hasStrayName (restored v) = false := by
  induction v using Value.induct with
  | step v ih =>
    intro clear
    cases v with
    | obj members =>
      have each := hasStrayMember_eq_false.mp clear
      rw [restored_obj]
      refine hasStrayMember_eq_false.mpr ?_
      rintro ⟨name, w⟩ among
      obtain ⟨v, held, restores⟩ := mem_written among
      obtain ⟨atItems, atProperties, named⟩ := each _ held
      obtain ⟨itself, inside⟩ := ih v (List.mem_map_of_mem held)
      cases restores with
      | items => exact ⟨fun _ => itself (atItems rfl), by simp, by simp⟩
      | @properties entries =>
        have listed := hasStrayListed_eq_false.mp (atProperties rfl)
        refine ⟨by simp, fun _ => hasStrayListed_eq_false.mpr fun entry held => ?_, by simp⟩
        obtain ⟨⟨key, x⟩, among, rfl⟩ := List.mem_map.mp held
        exact inside x (List.mem_map_of_mem among) (listed _ among)
      | extra other => exact ⟨atItems, atProperties, named⟩
      | _ => exact ⟨by simp, by simp, fun _ => keywords_whole _ (by simp [keywords])⟩
    | _ => rfl

theorem restored_height_le (v : Value) : (restored v).height ≤ v.height := by
  induction v using Value.induct with
  | step v ih =>
    cases v with
    | obj members =>
      have positive := (Value.obj members).height_pos
      obtain ⟨d, height⟩ := Nat.exists_eq_add_one.mpr positive
      have bound := Value.height_le.mp (Nat.le_of_eq height)
      rw [height, restored_obj, Value.height_le]
      intro w inside
      obtain ⟨⟨name, w⟩, among, rfl⟩ := List.mem_map.mp inside
      obtain ⟨v, held, restores⟩ := mem_written among
      have child := List.mem_map_of_mem (f := (·.2)) held
      obtain ⟨itself, further⟩ := ih v child
      refine Nat.le_trans ?_ (bound v child)
      cases restores with
      | type | ref | nullable | extra => exact Nat.le_refl _
      | items => exact itself
      | @properties entries =>
        obtain ⟨e, level⟩ := Nat.exists_eq_add_one.mpr (Value.obj entries).height_pos
        have each := Value.height_le.mp (Nat.le_of_eq level)
        rw [level, Value.height_le]
        intro x inner
        obtain ⟨entry, listed, rfl⟩ := List.mem_map.mp inner
        obtain ⟨⟨key, y⟩, source, rfl⟩ := List.mem_map.mp listed
        have grandchild := List.mem_map_of_mem (f := (·.2)) source
        exact Nat.le_trans (further y grandchild) (each y grandchild)
      | required demanded =>
        have flat : ((Value.arr ((names v).map .str))).height ≤ 2 := by
          refine Value.height_le.mpr fun x inner => ?_
          obtain ⟨s, _, rfl⟩ := List.mem_map.mp inner
          exact Nat.le_refl 1
        have level : 2 ≤ v.height := by
          cases v with
          | arr values =>
            cases values with
            | nil => exact absurd rfl demanded
            | cons first rest =>
              have inner := first.height_pos
              rw [Value.height, Value.heightOfElements]
              omega
          | _ => exact absurd rfl demanded
        exact Nat.le_trans flat level
    | _ => exact Value.height_pos _

mutual

/-- Schemas nest no deeper than the values that describe them. -/
theorem depth_le_height (n : Node) : n.depth ≤ n.toValue.height := by
  obtain ⟨type, properties, required, items, nullable, ref, extras⟩ := n
  obtain ⟨d, height⟩ := Nat.exists_eq_add_one.mpr
    (toValue ⟨type, properties, required, items, nullable, ref, extras⟩).height_pos
  have bound := Value.height_le.mp (Nat.le_of_eq height)
  have child (name : String) {w : Value}
      (among : (name, w) ∈ written ⟨type, properties, required, items, nullable, ref, extras⟩) :
      w.height ≤ d := by
    refine bound w ?_
    rw [toValue_eq]
    exact List.mem_map_of_mem (f := (·.2)) among
  rw [height, depth.eq_def, Nat.add_comm d]
  refine Nat.add_le_add_left (Nat.max_le.mpr ⟨?_, ?_⟩) 1
  · cases properties with
    | none => exact Nat.zero_le d
    | some entries =>
      have listed : (Value.obj (entryValues entries)).height ≤ d :=
        child "properties" (by simp [written, mem_optional])
      refine depthOfEntries_le entries fun entry among => ?_
      obtain ⟨e, level⟩ := Nat.exists_eq_add_one.mpr (Value.obj (entryValues entries)).height_pos
      have held : entry.2.toValue ∈ (Value.obj (entryValues entries)).children := by
        rw [entryValues_eq]
        exact List.mem_map.mpr ⟨_, List.mem_map_of_mem among, rfl⟩
      have inner := Value.height_le.mp (Nat.le_of_eq level) _ held
      omega
  · cases items with
    | none => exact Nat.zero_le d
    | some inner =>
      exact Nat.le_trans (depth_le_height inner)
        (child "items" (by simp [written, mem_optional]))

theorem depthOfEntries_le (entries : List (String × Node)) {d : Nat}
    (each : ∀ entry ∈ entries, entry.2.toValue.height ≤ d) : depthOfEntries entries ≤ d := by
  cases entries with
  | nil => exact Nat.zero_le d
  | cons entry rest =>
    obtain ⟨name, n⟩ := entry
    obtain ⟨first, others⟩ := List.forall_mem_cons.mp each
    exact Nat.max_le.mpr ⟨Nat.le_trans (depth_le_height n) first, depthOfEntries_le rest others⟩

end

theorem optional_name (name : String) (v : Option Value) :
    ((optional name v).map (·.1)).Sublist [name] := by
  cases v <;> simp [optional]

/-- Keywords are written first, each once at most. -/
theorem written_names (n : Node) :
    (n.written.map (·.1)).Sublist (keywords ++ n.extras.map (·.1)) := by
  simp only [written, List.map_append]
  exact (optional_name "type" _).append <| (optional_name "properties" _).append <|
    (optional_name "required" _).append <| (optional_name "items" _).append <|
    (optional_name "nullable" _).append <| (optional_name "$ref" _).append (List.Sublist.refl _)

theorem written_nodup {members : List (String × Value)} (once : (members.map (·.1)).Nodup) :
    ((ofMembers members).written.map (·.1)).Nodup := by
  refine (written_names _).nodup (List.nodup_append.mpr ⟨by decide, ?_, ?_⟩)
  · rw [ofMembers_eq]
    exact (List.filter_sublist.map _).nodup once
  · rintro name known _ extra rfl
    rw [ofMembers_eq] at extra
    obtain ⟨member, held, rfl⟩ := List.mem_map.mp extra
    exact extraMembers_extra members member held known

/-- A value restores to one with each name once if each name is in it once. -/
theorem restored_namesOnce (v : Value) : v.NamesOnce → (restored v).NamesOnce := by
  induction v using Value.induct with
  | step v ih =>
    intro namesOnce
    cases v with
    | obj members =>
      have once := namesOnce.members_nodup rfl
      rw [restored_obj]
      refine .obj (written_nodup once) ?_
      rintro ⟨name, w⟩ among
      obtain ⟨v, held, restores⟩ := mem_written among
      have child := List.mem_map_of_mem (f := (·.2)) held
      have given := namesOnce.children v child
      obtain ⟨itself, inside⟩ := ih v child
      cases restores with
      | type | ref | nullable | extra => exact given
      | items => exact itself given
      | @properties entries =>
        refine .obj ?_ fun entry listed => ?_
        · rw [List.map_map]
          exact given.members_nodup rfl
        · obtain ⟨⟨key, x⟩, source, rfl⟩ := List.mem_map.mp listed
          have grandchild := List.mem_map_of_mem (f := (·.2)) source
          exact inside x grandchild (given.children x grandchild)
      | required _ =>
        refine .arr fun x listed => ?_
        obtain ⟨s, _, rfl⟩ := List.mem_map.mp listed
        exact .str
    | _ => exact .obj .nil nofun

end Schema.Node

end PayloadCheck
