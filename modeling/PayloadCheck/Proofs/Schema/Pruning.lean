import PayloadCheck.Proofs.Schema.Resemblance
import PayloadCheck.Proofs.Schema.RoundTrip

namespace PayloadCheck.Schema

open Json Node

mutual

/-- What carries meaning in a schema, at all depths. -/
def pruned : Value → Value
  | .obj members => .obj (prunedMembers members)
  | v => v

def prunedMembers : List (String × Value) → List (String × Value)
  | [] => []
  | (key, v) :: rest => optional key (prunedKeyword key v) ++ prunedMembers rest

/-- What stays of the value of a keyword, if it has the shape that it should have. -/
def prunedKeyword (key : String) : Value → Option Value
  | .str s => if key = "type" ∨ key = "$ref" then some (.str s) else none
  | .bool b => if key = "nullable" then some (.bool b) else none
  | .arr values =>
    if key = "required" then some (.arr ((values.filterMap Value.str?).eraseDups.map .str)) else none
  | .obj members =>
    if key = "items" then some (.obj (prunedMembers members))
    else if key = "properties" then some (.obj (prunedEntries members))
    else none
  | _ => none

def prunedEntries : List (String × Value) → List (String × Value)
  | [] => []
  | (name, v) :: rest =>
    match v with
    | .obj members => (name, .obj (prunedMembers members)) :: prunedEntries rest
    | _ => prunedEntries rest

end

/-- A name and a value that mean something in a schema: a keyword with a value of its shape, in which no
name is required twice, and all that lies inside likewise. -/
inductive Meaningful : String → Value → Prop
  | type {s : String} : Meaningful "type" (.str s)
  | ref {s : String} : Meaningful "$ref" (.str s)
  | nullable {b : Bool} : Meaningful "nullable" (.bool b)
  | required {listed : List String} : listed.Nodup → Meaningful "required" (.arr (listed.map .str))
  | items {members : List (String × Value)} :
      (∀ member ∈ members, Meaningful member.1 member.2) → Meaningful "items" (.obj members)
  | properties {entries : List (String × List (String × Value))} :
      (∀ entry ∈ entries, ∀ member ∈ entry.2, Meaningful member.1 member.2) →
      Meaningful "properties" (.obj (entries.map fun entry => (entry.1, .obj entry.2)))

mutual

theorem meaningful_prunedMembers (members : List (String × Value)) :
    ∀ member ∈ prunedMembers members, Meaningful member.1 member.2 := by
  cases members with
  | nil => exact nofun
  | cons first rest =>
    obtain ⟨key, v⟩ := first
    intro member among
    rcases List.mem_append.mp among with here | later
    · obtain ⟨named, kept⟩ := mem_optional.mp here
      exact named ▸ meaningful_prunedKeyword key v kept
    · exact meaningful_prunedMembers rest member later

theorem meaningful_prunedKeyword (key : String) (v : Value) {w : Value}
    (kept : prunedKeyword key v = some w) : Meaningful key w := by
  cases v with
  | str s =>
    obtain ⟨rfl | rfl, rfl⟩ := by simpa [prunedKeyword] using kept
    · exact .type
    · exact .ref
  | bool b =>
    obtain ⟨rfl, rfl⟩ := by simpa [prunedKeyword] using kept
    exact .nullable
  | arr values =>
    obtain ⟨rfl, rfl⟩ := by simpa [prunedKeyword] using kept
    exact .required (nodup_eraseDups _)
  | obj members =>
    rw [prunedKeyword] at kept
    split_ifs at kept with atItems atProperties <;> obtain rfl := Option.some.inj kept
    · exact atItems ▸ .items (meaningful_prunedMembers members)
    · obtain ⟨entries, same, each⟩ := meaningful_prunedEntries members
      exact atProperties ▸ same ▸ .properties each
  | _ => nomatch kept

theorem meaningful_prunedEntries (members : List (String × Value)) :
    ∃ entries : List (String × List (String × Value)),
      prunedEntries members = entries.map (fun entry => (entry.1, .obj entry.2)) ∧
      ∀ entry ∈ entries, ∀ member ∈ entry.2, Meaningful member.1 member.2 := by
  cases members with
  | nil => exact ⟨[], rfl, nofun⟩
  | cons first rest =>
    obtain ⟨name, v⟩ := first
    obtain ⟨entries, same, each⟩ := meaningful_prunedEntries rest
    cases v with
    | obj members =>
      refine ⟨(name, prunedMembers members) :: entries, ?_,
        List.forall_mem_cons.mpr ⟨meaningful_prunedMembers members, each⟩⟩
      rw [prunedEntries, same, List.map_cons]
    | _ => exact ⟨entries, same, each⟩

end

theorem prunedMembers_self {members : List (String × Value)}
    (each : ∀ member ∈ members, prunedKeyword member.1 member.2 = some member.2) :
    prunedMembers members = members := by
  induction members with
  | nil => rfl
  | cons first rest ih =>
    obtain ⟨here, others⟩ := List.forall_mem_cons.mp each
    rw [prunedMembers, here, ih others]
    rfl

theorem prunedEntries_self {entries : List (String × List (String × Value))}
    (each : ∀ entry ∈ entries, ∀ member ∈ entry.2, prunedKeyword member.1 member.2 = some member.2) :
    prunedEntries (entries.map fun entry => (entry.1, .obj entry.2)) =
      entries.map fun entry => (entry.1, .obj entry.2) := by
  induction entries with
  | nil => rfl
  | cons first rest ih =>
    obtain ⟨here, others⟩ := List.forall_mem_cons.mp each
    rw [List.map_cons, prunedEntries, prunedMembers_self here, ih others]

theorem Meaningful.kept {key : String} {v : Value} (meaningful : Meaningful key v) :
    prunedKeyword key v = some v := by
  induction meaningful with
  | type | ref | nullable => rfl
  | @required listed once =>
    rw [prunedKeyword, if_pos rfl, filterMap_str?, eraseDups_of_nodup once]
  | @items members _ ih => rw [prunedKeyword, if_pos rfl, prunedMembers_self ih]
  | @properties entries _ ih => rw [prunedKeyword, if_neg (by decide), if_pos rfl, prunedEntries_self ih]

/-- Whatever a value says as a schema means something. -/
def AllMeaningful (v : Value) : Prop := ∀ member ∈ v.members?.getD [], Meaningful member.1 member.2

theorem allMeaningful_pruned (v : Value) : AllMeaningful (pruned v) := by
  cases v with
  | obj members => exact meaningful_prunedMembers members
  | _ => exact nofun

theorem AllMeaningful.pruned_eq {v : Value} (all : AllMeaningful v) : pruned v = v := by
  cases v with
  | obj members =>
    exact congrArg Value.obj (prunedMembers_self fun member among => (all member among).kept)
  | _ => rfl

/-- Where each name occurs once, a keyword is found as what is left of its value. -/
theorem lookup?_prunedMembers {members : List (String × Value)} (once : (members.map (·.1)).Nodup)
    (key : String) :
    lookup? key (prunedMembers members) = (lookup? key members).bind (prunedKeyword key) := by
  induction members with
  | nil => rfl
  | cons member rest ih =>
    obtain ⟨name, v⟩ := member
    obtain ⟨new, others⟩ := List.nodup_cons.mp once
    rw [prunedMembers, lookup?_append, lookup?_optional, lookup?, ih others]
    by_cases same : name = key
    · subst same
      have absent : lookup? name rest = none :=
        lookup?_eq_none.mpr fun entry among hit => new (List.mem_map.mpr ⟨entry, among, hit⟩)
      rw [if_pos rfl, if_pos rfl, absent, Option.bind_none, Option.or_none, Option.bind_some]
    · rw [if_neg same, if_neg same, Option.none_or]

theorem prunedKeyword_text {key : String} (text : key = "type" ∨ key = "$ref") (v : Value) :
    (prunedKeyword key v).bind Value.str? = v.str? := by
  rcases text with rfl | rfl <;> cases v <;> simp [prunedKeyword, Value.str?]

theorem prunedKeyword_nullable (v : Value) :
    ((prunedKeyword "nullable" v).map Value.isTrue).getD false = v.isTrue := by
  cases v <;> simp [prunedKeyword, Value.isTrue]

theorem prunedKeyword_required (v : Value) :
    ((prunedKeyword "required" v).map names).getD [] = names v := by
  cases v with
  | arr values =>
    simp only [prunedKeyword, if_true, Option.map_some, Option.getD_some, names_strings]
    rw [names, foldl_addName]
    exact eraseDups_of_nodup (nodup_eraseDups _)
  | obj members => simp [prunedKeyword, names]
  | _ => simp [prunedKeyword, names]

theorem callsOfMembers_append (before after : List (String × Value)) :
    callsOfMembers (before ++ after) = max (callsOfMembers after) (callsOfMembers before) := by
  induction before with
  | nil => exact (Nat.max_zero _).symm
  | cons member rest ih =>
    obtain ⟨key, v⟩ := member
    rw [List.cons_append, callsOfMembers, callsOfMembers, ih, Nat.max_assoc]

mutual

theorem calls_prunedMembers_le (members : List (String × Value)) :
    callsOfMembers (prunedMembers members) ≤ callsOfMembers members := by
  cases members with
  | nil => exact Nat.le_refl _
  | cons member rest =>
    obtain ⟨key, v⟩ := member
    rw [prunedMembers, callsOfMembers_append, callsOfMembers]
    exact max_le_max (calls_prunedMembers_le rest) (calls_prunedKeyword_le key v)

theorem calls_prunedKeyword_le (key : String) (v : Value) :
    callsOfMembers (Node.optional key (prunedKeyword key v)) ≤
      if key = "items" then calls v else if key = "properties" then callsOfEntries v else 0 := by
  cases kept : prunedKeyword key v with
  | none => exact Nat.zero_le _
  | some w =>
    cases v with
    | obj members =>
      have inside := calls_prunedMembers_le members
      have entries := calls_prunedEntries_le members
      rw [prunedKeyword] at kept
      split_ifs at kept with atItems atProperties <;> obtain rfl := Option.some.inj kept
      · simpa [atItems, Node.optional, callsOfMembers, calls] using inside
      · simpa [atProperties, Node.optional, callsOfMembers, callsOfEntries] using entries
    | arr values =>
      obtain ⟨rfl, rfl⟩ := by simpa [prunedKeyword] using kept
      exact Nat.le_refl _
    | bool b =>
      obtain ⟨rfl, rfl⟩ := by simpa [prunedKeyword] using kept
      exact Nat.le_refl _
    | str s =>
      obtain ⟨rfl | rfl, rfl⟩ := by simpa [prunedKeyword] using kept
      all_goals exact Nat.le_refl _
    | _ => nomatch kept

theorem calls_prunedEntries_le (entries : List (String × Value)) :
    callsOfList (prunedEntries entries) ≤ callsOfList entries := by
  cases entries with
  | nil => exact Nat.le_refl _
  | cons entry rest =>
    obtain ⟨name, v⟩ := entry
    have others := calls_prunedEntries_le rest
    cases v with
    | obj members => exact max_le_max others (Nat.add_le_add_left (calls_prunedMembers_le members) 1)
    | _ => exact Nat.le_trans others (Nat.le_max_left _ _)

end

theorem calls_pruned_le (v : Value) : calls (pruned v) ≤ calls v := by
  cases v with
  | obj members => exact Nat.add_le_add_left (calls_prunedMembers_le members) 1
  | _ => exact Nat.le_refl _

/-- A schema before and after, or a schema that stays as it is. -/
inductive Prunes : Node → Node → Prop
  | same (n : Node) : Prunes n n
  | pruned {v : Value} : v.NamesOnce → Prunes (described v) (described (pruned v))

theorem entries_pruned {entries : List (String × Value)} (once : ∀ entry ∈ entries, entry.2.NamesOnce) :
    Entries .equal Prunes (ofEntries entries) (ofEntries (prunedEntries entries)) := by
  induction entries with
  | nil => exact .nil
  | cons entry rest ih =>
    obtain ⟨name, v⟩ := entry
    obtain ⟨here, others⟩ := List.forall_mem_cons.mp once
    cases v with
    | obj members => exact .kept (.pruned here) (ih others)
    | _ => exact .idle (ih others)

theorem properties_pruned {v : Value} (once : v.NamesOnce) :
    (properties? v).isSome = ((prunedKeyword "properties" v).bind properties?).isSome ∧
      Entries .equal Prunes ((properties? v).getD [])
        (((prunedKeyword "properties" v).bind properties?).getD []) := by
  cases once with
  | obj _ each => exact ⟨rfl, entries_pruned each⟩
  | _ => exact ⟨rfl, .nil⟩

theorem items_pruned {v : Value} (once : v.NamesOnce) :
    Option.Rel Prunes (ofValue? v) ((prunedKeyword "items" v).bind ofValue?) := by
  have inside := Prunes.pruned once
  cases once with
  | obj => exact .some inside
  | _ => exact .none

section

variable {members : List (String × Value)} (once : (members.map (·.1)).Nodup)
  (each : ∀ member ∈ members, member.2.NamesOnce)
include once each

/-- What holds of a keyword that is absent and of the value of one that is present, before and after. -/
theorem keyword_pruned (key : String) {p : Option Value → Option Value → Prop} (absent : p none none)
    (present : ∀ v, v.NamesOnce → p (some v) (prunedKeyword key v)) :
    p (lookup? key members) (lookup? key (prunedMembers members)) := by
  rw [lookup?_prunedMembers once]
  cases here : lookup? key members with
  | none => exact absent
  | some v => exact present v (each _ (mem_of_lookup? here))

theorem members_pruned :
    (ofMembers members).ref = (ofMembers (prunedMembers members)).ref ∧
      Level .equal Prunes (ofMembers members) (ofMembers (prunedMembers members)) := by
  have text {key : String} (given : key = "type" ∨ key = "$ref") :=
    keyword_pruned once each key (p := fun x y => x.bind Value.str? = y.bind Value.str?) rfl fun v _ =>
      (prunedKeyword_text given v).symm
  have required := keyword_pruned once each "required"
    (p := fun x y => (x.map names).getD [] = (y.map names).getD []) rfl fun v _ =>
      (prunedKeyword_required v).symm
  have nullable := keyword_pruned once each "nullable"
    (p := fun x y => (x.map Value.isTrue).getD false = (y.map Value.isTrue).getD false) rfl fun v _ =>
      (prunedKeyword_nullable v).symm
  have properties := keyword_pruned once each "properties"
    (p := fun x y => (x.bind properties?).isSome = (y.bind properties?).isSome ∧
      Entries .equal Prunes ((x.bind properties?).getD []) ((y.bind properties?).getD [])) ⟨rfl, .nil⟩
      fun _ => properties_pruned
  have items := keyword_pruned once each "items"
    (p := fun x y => Option.Rel Prunes (x.bind ofValue?) (y.bind ofValue?)) .none fun _ => items_pruned
  rw [ofMembers_eq, ofMembers_eq]
  exact ⟨text (Or.inr rfl),
    .of_entries (text (Or.inl rfl)) required nullable properties.1 properties.2 items⟩

end

theorem Prunes.level {n n' : Node} (prunes : Prunes n n') :
    n.ref = n'.ref ∧ Level .equal Prunes n n' := by
  have same (n : Node) : n.ref = n.ref ∧ Level .equal Prunes n n :=
    ⟨rfl, (SameLevel.self .same n).level _⟩
  rcases prunes with _ | once
  · exact same n
  · cases once with
    | obj once each => exact members_pruned once each
    | _ => exact same _

/-- Nothing that carries no meaning changes what is reported. -/
theorem checkRaw_pruned {room : Nat} {raw : Value} (once : raw.NamesOnce) (readable : calls raw ≤ room)
    (references : Option (References Id)) (data : Value) :
    Id.run (checkRaw (steady references) room data raw) =
      Id.run (checkRaw (steady references) room data (pruned raw)) :=
  checkRaw_congr readable ((calls_pruned_le raw).trans readable) references
    (violations_eq_of_level references .same (fun _ _ => Prunes.level) room (.pruned once) data)

theorem Meaningful.named {key : String} {v : Value} (meaningful : Meaningful key v) :
    key ∈ keywords ∧ (key = "items" → hasStrayName v = false) ∧
      (key = "properties" → hasStrayEntry v = false) := by
  have clear {members : List (String × Value)}
      (each : ∀ member ∈ members, member.1 ∈ keywords ∧
        (member.1 = "items" → hasStrayName member.2 = false) ∧
        (member.1 = "properties" → hasStrayEntry member.2 = false)) :
      hasStrayName (.obj members) = false := by
    refine hasStrayMember_eq_false.mpr fun member among => ?_
    obtain ⟨keyword, atItems, atProperties⟩ := each member among
    exact ⟨atItems, atProperties, fun _ => keywords_whole _ keyword⟩
  induction meaningful with
  | type | ref | nullable | required => exact ⟨by decide, fun _ => rfl, fun _ => rfl⟩
  | items _ ih => exact ⟨by decide, fun _ => clear ih, fun other => absurd other (by decide)⟩
  | properties _ ih =>
    refine ⟨by decide, fun other => absurd other (by decide), fun _ => hasStrayListed_eq_false.mpr ?_⟩
    exact List.forall_mem_map.mpr fun entry among => clear (ih entry among)

/-- Every name is a text in a schema in which everything means something. -/
theorem AllMeaningful.named {v : Value} (all : AllMeaningful v) : hasStrayName v = false := by
  cases v with
  | obj members =>
    refine hasStrayMember_eq_false.mpr fun member among => ?_
    obtain ⟨keyword, atItems, atProperties⟩ := (all member among).named
    exact ⟨atItems, atProperties, fun _ => keywords_whole _ keyword⟩
  | _ => rfl

end PayloadCheck.Schema
