import Mathlib.Logic.Relation
import PayloadCheck.Proofs.Document.Height
import PayloadCheck.Proofs.Schema.Positions
import PayloadCheck.Proofs.Schema.Report
import PayloadCheck.Proofs.Schema.Resemblance

namespace PayloadCheck.Schema

open Json

variable {lookup : String → Option Node} {followed : List String} {node last : Node}

/-- One schema refers to another. -/
def Refers (lookup : String → Option Node) (n n' : Node) : Prop :=
  ∃ ref, n.ref = some ref ∧ lookup ref = some n'

namespace Leads

theorem reaches (leads : Leads lookup followed node last) :
    Relation.ReflTransGen (Refers lookup) node last := by
  induction leads with
  | plain | again | dangling => exact .refl
  | next named _ found _ ih => exact .head ⟨_, named, found⟩ ih

/-- What has been followed can be forgotten, but for a reference at which the chain ends. -/
theorem forget (leads : Leads lookup followed node last) {remembered : List String}
    (fewer : remembered ⊆ followed)
    (kept : ∀ ref ∈ followed, last.ref = some ref → ref ∈ remembered) :
    Leads lookup remembered node last := by
  induction leads generalizing remembered with
  | plain without => exact .plain without
  | again named known => exact .again named (kept _ known named)
  | dangling named fresh nothing => exact .dangling named (fun old => fresh (fewer old)) nothing
  | next named fresh found _ ih =>
    refine .next named (fun old => fresh (fewer old)) found (ih (List.cons_subset_cons _ fewer) ?_)
    intro ref among ends
    rcases List.mem_cons.mp among with rfl | old
    · exact List.mem_cons_self
    · exact List.mem_cons_of_mem _ (kept ref old ends)

/-- The reference at the end of a chain names nothing, or it has been followed, and the chain has led
back from there. -/
theorem stops (leads : Leads lookup followed node last) {ref : String} (ends : last.ref = some ref) :
    lookup ref = none ∨ ref ∈ followed ∨
      ∃ earlier target, lookup ref = some target ∧ Leads lookup (ref :: earlier) target last := by
  induction leads with
  | plain without => exact nomatch without.symm.trans ends
  | again named known =>
    obtain rfl := Option.some.inj (named.symm.trans ends)
    exact Or.inr (Or.inl known)
  | dangling named _ nothing =>
    obtain rfl := Option.some.inj (named.symm.trans ends)
    exact Or.inl nothing
  | @next followed _ first target _ _ _ found rest ih =>
    rcases ih ends with nothing | known | onward
    · exact Or.inl nothing
    · rcases List.mem_cons.mp known with rfl | old
      · exact Or.inr (Or.inr ⟨followed, target, found, rest⟩)
      · exact Or.inr (Or.inl old)
    · exact Or.inr (Or.inr onward)

/-- The end of a chain is where its own chain ends. -/
theorem settles (leads : Leads lookup [] node last) : Leads lookup [] last last := by
  cases named : last.ref with
  | none => exact .plain named
  | some ref =>
    have fresh : ref ∉ ([] : List String) := List.not_mem_nil
    rcases leads.stops named with nothing | known | ⟨earlier, target, found, rest⟩
    · exact .dangling named fresh nothing
    · exact absurd known fresh
    · refine .next named fresh found (rest.forget (by simp) fun other among ends => ?_)
      obtain rfl := Option.some.inj (named.symm.trans ends)
      exact List.mem_singleton_self _

/-- A chain ends where it starts or at a schema that was looked up. -/
theorem source (leads : Leads lookup followed node last) :
    last = node ∨ ∃ ref, lookup ref = some last := by
  induction leads with
  | plain | again | dangling => exact Or.inl rfl
  | @next _ _ ref _ _ _ _ found _ ih => exact Or.inr (ih.elim (fun same => ⟨ref, same ▸ found⟩) id)

end Leads

/-- A look-up that notes what it is asked for. -/
def noting (lookup : String → Option Node) (ref : String) : StateM (List String) (Option Node) :=
  fun looked => (lookup ref, looked ++ [ref])

/-- Where following references gets with so many look-ups, and what it has looked up, in order. -/
def chase (lookup : String → Option Node) (count : Nat) (node : Node) : Node × List String :=
  followFrom (noting lookup) count [] node []

/-- The chain from one schema to another, and the references that are looked up along it. -/
inductive Walks (lookup : String → Option Node) :
    (followed : List String) → Node → (looked : List String) → Node → Prop
  | plain {followed : List String} {node : Node} : node.ref = none → Walks lookup followed node [] node
  | again {followed : List String} {node : Node} {ref : String} :
      node.ref = some ref → ref ∈ followed → Walks lookup followed node [] node
  | dangling {followed : List String} {node : Node} {ref : String} :
      node.ref = some ref → ref ∉ followed → lookup ref = none → Walks lookup followed node [ref] node
  | next {followed looked : List String} {node target last : Node} {ref : String} :
      node.ref = some ref → ref ∉ followed → lookup ref = some target →
      Walks lookup (ref :: followed) target looked last →
      Walks lookup followed node (ref :: looked) last

/-- One look-up that is noted. -/
theorem followFrom_noting_succ (lookup : String → Option Node) (count : Nat) (followed before : List String)
    (node : Node) :
    followFrom (noting lookup) (count + 1) followed node before =
      match node.ref with
      | none => (node, before)
      | some ref =>
        if ref ∈ followed then (node, before)
        else
          match lookup ref with
          | none => (node, before ++ [ref])
          | some target =>
            followFrom (noting lookup) count (ref :: followed) target (before ++ [ref]) := by
  rw [followFrom]
  cases node.ref with
  | none => rfl
  | some ref =>
    by_cases known : ref ∈ followed
    · simp only [List.contains_eq_mem, known, decide_true, if_true]
      rfl
    · simp only [List.contains_eq_mem, known, decide_false, Bool.false_eq_true, if_false]
      change (match lookup ref with
        | none => _
        | some target => followFrom (noting lookup) count (ref :: followed) target) (before ++ [ref]) = _
      cases lookup ref <;> rfl

theorem Leads.walks (leads : Leads lookup followed node last) :
    ∃ looked, Walks lookup followed node looked last := by
  induction leads with
  | plain without => exact ⟨[], .plain without⟩
  | again named known => exact ⟨[], .again named known⟩
  | dangling named fresh nothing => exact ⟨_, .dangling named fresh nothing⟩
  | next named fresh found _ ih =>
    obtain ⟨looked, walks⟩ := ih
    exact ⟨_, .next named fresh found walks⟩

namespace Walks

variable {looked : List String}

/-- Nothing is looked up twice, and nothing that has been followed before. -/
theorem distinct (walks : Walks lookup followed node looked last) :
    looked.Nodup ∧ ∀ ref ∈ looked, ref ∉ followed := by
  induction walks with
  | plain | again => exact ⟨.nil, nofun⟩
  | dangling _ fresh _ => exact ⟨List.nodup_singleton _, by simpa using fresh⟩
  | next _ fresh _ _ ih =>
    obtain ⟨once, new⟩ := ih
    refine ⟨List.nodup_cons.mpr ⟨fun again => new _ again List.mem_cons_self, once⟩, ?_⟩
    refine List.forall_mem_cons.mpr ⟨fresh, fun ref among old => ?_⟩
    exact new ref among (List.mem_cons_of_mem _ old)

/-- What is looked up is the reference of the first schema or of one that was found. -/
theorem sources (walks : Walks lookup followed node looked last) :
    ∀ ref ∈ looked, node.ref = some ref ∨ ∃ other target, lookup other = some target ∧ target.ref = some ref := by
  induction walks with
  | plain | again => exact nofun
  | dangling named _ _ => simpa using Or.inl named
  | next named _ found _ ih =>
    refine List.forall_mem_cons.mpr ⟨Or.inl named, fun ref among => Or.inr ?_⟩
    exact (ih ref among).elim (fun own => ⟨_, _, found, own⟩) id

theorem length_le (walks : Walks lookup followed node looked last) {entries : List Node}
    (closed : ∀ ref target, lookup ref = some target → target ∈ entries) :
    looked.length ≤ entries.length + 1 := by
  have among : looked ⊆ node.ref.toList ++ entries.filterMap (·.ref) := by
    intro ref member
    rcases walks.sources ref member with own | ⟨other, target, found, named⟩
    · exact List.mem_append_left _ (by simp [own])
    · exact List.mem_append_right _ (List.mem_filterMap.mpr ⟨target, closed other target found, named⟩)
  have bound := (walks.distinct.1.subperm among).length_le
  have own : node.ref.toList.length ≤ 1 := by cases node.ref <;> simp
  have others := List.length_filterMap_le (fun n : Node => n.ref) entries
  rw [List.length_append] at bound
  omega

/-- The reference at the end has been looked up, unless it had been followed before. -/
theorem ends (walks : Walks lookup followed node looked last) {ref : String}
    (named : last.ref = some ref) : ref ∈ followed ∨ ref ∈ looked := by
  induction walks with
  | plain without => exact nomatch without.symm.trans named
  | again own known =>
    obtain rfl := Option.some.inj (own.symm.trans named)
    exact Or.inl known
  | dangling own _ _ =>
    obtain rfl := Option.some.inj (own.symm.trans named)
    exact Or.inr (List.mem_singleton_self _)
  | next _ _ _ _ ih =>
    rcases ih named with known | later
    · rcases List.mem_cons.mp known with rfl | old
      · exact Or.inr List.mem_cons_self
      · exact Or.inl old
    · exact Or.inr (List.mem_cons_of_mem _ later)

/-- With as many look-ups as there are references along the chain, its end is reached, and with more
nothing else is looked up. -/
theorem run (walks : Walks lookup followed node looked last) {count : Nat}
    (enough : looked.length ≤ count) (before : List String) :
    followFrom (noting lookup) count followed node before = (last, before ++ looked) := by
  induction walks generalizing count before with
  | plain without =>
    rw [List.append_nil]
    cases count with
    | zero => rfl
    | succ count => simp only [followFrom_noting_succ, without]
  | again named known =>
    rw [List.append_nil]
    cases count with
    | zero => rfl
    | succ count => simp only [followFrom_noting_succ, named, known, if_true]
  | dangling named fresh nothing =>
    obtain ⟨count, rfl⟩ := Nat.exists_eq_add_one.mpr (Nat.zero_lt_of_lt enough)
    simp only [followFrom_noting_succ, named, fresh, if_false, nothing]
  | next named fresh found _ ih =>
    obtain ⟨count, rfl⟩ := Nat.exists_eq_add_one.mpr (Nat.zero_lt_of_lt enough)
    simp only [followFrom_noting_succ, named, fresh, if_false, found]
    rw [ih (Nat.le_of_succ_le_succ enough), List.append_assoc, List.singleton_append]

end Walks

/-- Where following references comes to rest, after some have been looked up. -/
inductive Rests (lookup : String → Option Node) (looked : List String) (last : Node) : Prop
  | plain : last.ref = none → Rests lookup looked last
  | dangling {ref : String} : last.ref = some ref → lookup ref = none → Rests lookup looked last
  | cycle {ref : String} : last.ref = some ref → ref ∈ looked →
      Relation.TransGen (Refers lookup) last last → Rests lookup looked last

theorem Walks.rests {looked : List String} (walks : Walks lookup [] node looked last)
    (leads : Leads lookup [] node last) : Rests lookup looked last := by
  cases named : last.ref with
  | none => exact .plain named
  | some ref =>
    have among : ref ∈ looked := (walks.ends named).resolve_left List.not_mem_nil
    rcases leads.stops named with nothing | known | ⟨earlier, target, found, rest⟩
    · exact .dangling named nothing
    · exact nomatch known
    · exact .cycle named among (.head' ⟨ref, named, found⟩ rest.reaches)

end PayloadCheck.Schema

namespace PayloadCheck.Json.Value

mutual

theorem callDepth_lt_height (v : Value) : v.callDepth < 2 * v.height := by
  cases v with
  | obj members =>
    have inside := callDepthOfMembers_le_height members
    rw [callDepth, height]
    omega
  | arr elements =>
    have inside := callDepthOfElements_le_height elements
    rw [callDepth, height]
    omega
  | _ => exact Nat.two_pos

theorem callDepthOfElements_le_height (elements : List Value) :
    callDepthOfElements elements ≤ 2 * heightOfElements elements := by
  cases elements with
  | nil => exact Nat.le_refl 0
  | cons v rest =>
    have first := callDepth_lt_height v
    have others := callDepthOfElements_le_height rest
    rw [callDepthOfElements, heightOfElements]
    omega

theorem callDepthOfMembers_le_height (members : List (String × Value)) :
    callDepthOfMembers members ≤ 2 * heightOfMembers members := by
  cases members with
  | nil => exact Nat.le_refl 0
  | cons member rest =>
    obtain ⟨name, v⟩ := member
    have first := callDepth_lt_height v
    have others := callDepthOfMembers_le_height rest
    rw [callDepthOfMembers, heightOfMembers]
    omega

end

end PayloadCheck.Json.Value

namespace PayloadCheck.Schema

open Json

/-- The violations of an object, where no more than so many calls for objects may be open at once. -/
def checkObjects (references : Option (References Id)) : (calls : Nat) → Descent Id
  | 0, _, _ => failure
  | calls + 1, members, node => do
    let inside ← checkMembers (steady references) (fun _ => checkObjects references calls) members
      (node.properties.getD [])
    return missing members node.required ++ inside

/-- The violations of a value, where no more than so many calls for objects may be open at once. -/
def violationsWithin (references : Option (References Id)) (calls : Nat) (v : Value) (node : Node) :
    Finding Id := do
  let resolved ← OptionT.lift (follow references node)
  match v with
  | .obj members => checkObjects references calls members resolved
  | _ => insideArray references (checkObjects references calls) [] v resolved

/-- No more calls for objects are open at once than the value has levels. -/
theorem checkObjects_alike {references : Option (References Id)} {calls room taken : Nat} {v : Value}
    (levels : v.height ≤ calls) (enough : taken + v.callDepth ≤ room) :
    AlikeAt (checkObjects references calls) (checkObject (steady references) room taken) v := by
  induction room generalizing calls taken v with
  | zero =>
    rintro members node rfl
    simp only [Value.callDepth] at enough
    omega
  | succ room ih =>
    rintro members node rfl
    cases taken with
    | succ taken => exact ih levels (by omega) members node rfl
    | zero =>
      obtain ⟨c, rfl⟩ := Nat.exists_eq_add_one.mpr (Nat.lt_of_lt_of_le (Value.height_pos _) levels)
      have lower := Value.height_le.mp levels
      simp only [Value.callDepth] at enough
      have inside : Alike [] []
          (checkMembers (steady references) (fun _ => checkObjects references c) members
            (node.properties.getD []))
          (checkMembers (steady references) (checkObject (steady references) room) members
            (node.properties.getD [])) := by
        refine checkMembers_alike (fun name v found => ?_) _
        have low : v.height ≤ c := lower v (List.mem_map_of_mem (mem_of_lookup? found))
        have deep := Value.callDepth_lt_members found
        refine ⟨ih low (by omega), fun w within => ?_⟩
        have lowest := Value.height_le.mp (Nat.le_succ_of_le low) w within
        have deeper := Value.callDepth_lt_children within
        exact ih lowest (by omega)
      have both := inside.behind (missing members node.required)
      rw [Violation.map_under_nil] at both
      exact both

theorem violationsWithin_alike (references : Option (References Id)) {calls room : Nat} {data : Value}
    (levels : data.height ≤ calls) (enough : data.callDepth ≤ room) (node : Node) :
    Alike [] [] (violationsWithin references calls data node)
      (violations (steady references) room data node) := by
  refine .lifted _ ?_
  cases data with
  | obj members =>
    exact checkObjects_alike levels (by omega : 0 + (Value.obj members).callDepth ≤ room) members _ rfl
  | _ =>
    refine insideArray_alike [] [] (fun w within => ?_) _
    have lower := Value.height_le.mp (Nat.le_succ_of_le levels) w within
    have deeper := Value.callDepth_lt_children within
    exact checkObjects_alike lower (by omega)

/-- A check is not cut off where there is room for the calls that the payload asks for. -/
theorem violations_found (references : Option (References Id)) {room : Nat} {data : Value}
    (enough : data.callDepth ≤ room) (node : Node) :
    ∃ found, result? (violations (steady references) room data node) = some found := by
  obtain ⟨found, _, reached⟩ := violationsWithin_alike references (Nat.le_refl data.height) enough node
  exact ⟨_, reached⟩

end PayloadCheck.Schema

namespace PayloadCheck.Spec

open Json Schema

/-- A table of references that allows more look-ups leads to the same schemas. -/
theorem follow_eq_of_size {room : Nat} {document : Value} {size : Nat} (enough : tableSize document ≤ size)
    (n : Node) :
    Id.run (follow (some (references room document)) n) =
      Id.run (follow (some ⟨lookupRef room document, size⟩) n) := by
  obtain ⟨entries, length, closed⟩ := references_bounded room document
  have bounded : ∀ table ∈ some (⟨lookupRef room document, size⟩ : References Id), table.Bounded := by
    rintro _ ⟨⟩
    exact ⟨entries, Nat.le_trans length enough, closed⟩
  have larger := dereferenced_follow bounded n
  have own := dereferenced_follow (documentReferences_bounded room (some document)) n
  exact Leads.unique own larger

/-- Following references makes at most one look-up more than the tables have entries, however many are
allowed; it comes to rest, and stays there when it starts again. The check of a payload needs no more
look-ups for a schema than that, and no more calls for objects are open at once than the payload has
levels, nor twice as many calls of any kind: whatever else is allowed, it finds the same. So it does in a
resolver that has been asked before, if the payload leaves room to read what the references name. -/
theorem following_settles (room : Nat) (document data : Value) (node : Node) :
    ∃ (last : Node) (looked : List String) (found : List Violation),
      (∀ count, tableSize document < count →
        chase (lookupRef room document) count node = (last, looked)) ∧
      looked.length ≤ tableSize document + 1 ∧
      Rests (lookupRef room document) looked last ∧
      Id.run (follow (some (references room document)) node) = last ∧
      Id.run (follow (some (references room document)) last) = last ∧
      (∀ size calls, tableSize document ≤ size → data.height ≤ calls →
        result? (violationsWithin (some ⟨lookupRef room document, size⟩) calls data node) = some found) ∧
      data.callDepth < 2 * data.height ∧
      (∀ size enough, tableSize document ≤ size → data.callDepth ≤ enough →
        Id.run (check (steady (some ⟨lookupRef room document, size⟩)) enough data node) =
          found.map Violation.report) ∧
      (Legible document → Spares document room data.callDepth → data.callDepth ≤ room → ∀ asked,
        (Target.node node).checkAfter asked room (some document) data =
          .ok (found.map Violation.report)) := by
  have bounded := documentReferences_bounded room (some document)
  have leads : Leads (lookupRef room document) [] node _ := dereferenced_follow bounded node
  obtain ⟨looked, walks⟩ := leads.walks
  obtain ⟨entries, size, closed⟩ := references_bounded room document
  have few : looked.length ≤ tableSize document + 1 :=
    Nat.le_trans (walks.length_le closed) (Nat.succ_le_succ size)
  obtain ⟨found, result⟩ :=
    violations_found (some (references room document)) (Nat.le_refl data.callDepth) node
  have finds (size enough : Nat) (wide : tableSize document ≤ size) (deep : data.callDepth ≤ enough) :
      result? (violations (steady (some ⟨lookupRef room document, size⟩)) enough data node) =
        some found :=
    (resembling_self (follow_eq_of_size wide)).prolongs deep data rfl found result
  refine ⟨_, looked, found, ?_, few, walks.rests leads, rfl, ?_, ?_, data.callDepth_lt_height, ?_, ?_⟩
  · intro count more
    exact walks.run (Nat.le_trans few more) []
  · exact ((dereferenced_iff bounded).mp leads.settles).symm
  · intro size calls wide levels
    obtain ⟨same, within, whole⟩ := violationsWithin_alike (some ⟨lookupRef room document, size⟩) levels
      (Nat.le_refl data.callDepth) node
    rw [within, ← whole, finds size _ wide (Nat.le_refl _)]
  · intro size enough wide deep
    exact congrArg reports (finds size enough wide deep)
  · intro legible spares deep asked
    have readable : ∀ spec ∈ some document, Legible spec ∧ Spares spec room data.callDepth := by
      rintro _ ⟨⟩
      exact ⟨legible, spares⟩
    rw [Target.checkAfter_eq readable]
    exact congrArg (Except.ok ∘ reports) (finds _ room (Nat.le_refl _) deep)

end PayloadCheck.Spec
