import PayloadCheck.Proofs.Document.Height

namespace PayloadCheck

namespace Json.Value

mutual

/-- The number of values in a value, itself among them. -/
def nodeCount : Value → Nat
  | .arr vs => 1 + nodesOfElements vs
  | .obj members => 1 + nodesOfMembers members
  | _ => 1

def nodesOfElements : List Value → Nat
  | [] => 0
  | v :: vs => nodeCount v + nodesOfElements vs

def nodesOfMembers : List (String × Value) → Nat
  | [] => 0
  | (_, v) :: rest => nodeCount v + nodesOfMembers rest

end

theorem nodesOfElements_eq (vs : List Value) : nodesOfElements vs = (vs.map nodeCount).sum := by
  induction vs with
  | nil => rfl
  | cons v vs ih => rw [nodesOfElements, ih, List.map_cons, List.sum_cons]

theorem nodesOfMembers_eq (members : List (String × Value)) :
    nodesOfMembers members = (members.map (·.2.nodeCount)).sum := by
  induction members with
  | nil => rfl
  | cons member rest ih => rw [nodesOfMembers, ih, List.map_cons, List.sum_cons]

theorem nodeCount_eq (v : Value) : v.nodeCount = 1 + (v.children.map nodeCount).sum := by
  cases v with
  | arr vs => rw [nodeCount, nodesOfElements_eq, children]
  | obj members => rw [nodeCount, nodesOfMembers_eq, children, List.map_map]; rfl
  | _ => rfl

end Json.Value

namespace Document

open Json

/-- The values that are still to be counted, each with its level, the next one first. -/
abbrev Pending := List (Value × Nat)

/-- The values inside a value, the last of them first, one level further in. -/
def inside (v : Value) (level : Nat) : Pending := v.children.reverse.map (·, level + 1)

def Pending.size (pending : Pending) : Nat := (pending.map (·.1.nodeCount)).sum

namespace Pending

@[simp] theorem size_nil : size [] = 0 := rfl

@[simp] theorem size_append (pending others : Pending) :
    size (pending ++ others) = pending.size + others.size := by
  simp [size]

/-- Putting what is inside a value in its place takes the value itself away. -/
theorem size_inside (v : Value) (level : Nat) (pending : Pending) :
    size ((v, level) :: pending) = 1 + size (inside v level ++ pending) := by
  have within : size (inside v level) = (v.children.map Value.nodeCount).sum := by
    simp [size, inside, Function.comp_def]
  rw [size_append, within, size, List.map_cons, List.sum_cons, v.nodeCount_eq, size, Nat.add_assoc]

end Pending

/-- Counts the pending values, after those counted before, as long as they keep within the bounds. -/
def walk (nodes depth : Int) (count : Nat) : Pending → Except Excess Nat
  | [] => .ok count
  | (v, level) :: pending =>
    if nodes < count + 1 then .error .nodes
    else if depth < level then .error .depth
    else walk nodes depth (count + 1) (inside v level ++ pending)
termination_by pending => pending.size
decreasing_by
  rw [Pending.size_inside]
  omega

/-- What has been counted and what is pending keep within the bounds. -/
structure Fits (nodes depth : Int) (count : Nat) (pending : Pending) : Prop where
  nodes : pending ≠ [] → (count + pending.size : Int) ≤ nodes
  depth : ∀ entry ∈ pending, (entry.2 + entry.1.height : Int) ≤ depth + 1

section

variable {nodes depth : Int} {count level total : Nat} {pending : Pending} {v : Value}

theorem forall_inside {p : Value × Nat → Prop} :
    (∀ entry ∈ inside v level, p entry) ↔ ∀ w ∈ v.children, p (w, level + 1) := by
  simp [inside]

/-- A value keeps within a bound on the levels if it stands within it, and so does all that is inside. -/
theorem level_height_le : (level + v.height : Int) ≤ depth + 1 ↔
    (level : Int) ≤ depth ∧ ∀ entry ∈ inside v level, (entry.2 + entry.1.height : Int) ≤ depth + 1 := by
  rw [forall_inside]
  constructor
  · intro within
    have positive := v.height_pos
    have each := Value.height_le.mp (by omega : v.height ≤ (v.height - 1) + 1)
    refine ⟨by omega, fun w among => ?_⟩
    have inner := each w among
    push_cast
    omega
  · rintro ⟨here, each⟩
    have bound : v.height ≤ (depth - level).toNat + 1 := Value.height_le.mpr fun w among => by
      have inner := each w among
      push_cast at inner
      omega
    omega

/-- A step of the walk keeps to what fits. -/
theorem fits_cons : Fits nodes depth count ((v, level) :: pending) ↔
    (count + 1 : Int) ≤ nodes ∧ (level : Int) ≤ depth ∧
      Fits nodes depth (count + 1) (inside v level ++ pending) := by
  have whole := Pending.size_inside v level pending
  constructor
  · rintro ⟨counted, levels⟩
    obtain ⟨first, others⟩ := List.forall_mem_cons.mp levels
    obtain ⟨here, deeper⟩ := level_height_le.mp first
    have bound := counted (List.cons_ne_nil _ _)
    refine ⟨by omega, here, fun _ => by push_cast; omega, fun entry among => ?_⟩
    exact (List.mem_append.mp among).elim (deeper entry) (others entry)
  · rintro ⟨next, here, counted, levels⟩
    obtain ⟨deeper, others⟩ := List.forall_mem_append.mp levels
    refine ⟨fun _ => ?_, List.forall_mem_cons.mpr ⟨level_height_le.mpr ⟨here, deeper⟩, others⟩⟩
    by_cases empty : inside v level ++ pending = []
    · rw [empty, Pending.size_nil] at whole
      omega
    · have bound := counted empty
      push_cast at bound
      omega

/-- The walk comes to its end exactly with what fits, and has counted all of it. -/
theorem walk_eq_ok : walk nodes depth count pending = .ok total ↔
    total = count + pending.size ∧ Fits nodes depth count pending := by
  fun_induction walk nodes depth count pending with
  | case1 count =>
    have fits : Fits nodes depth count [] := ⟨absurd rfl, List.forall_mem_nil _⟩
    simp [fits, eq_comm]
  | case2 count v level pending beyond =>
    simp only [reduceCtorEq, fits_cons, false_iff]
    omega
  | case3 count v level pending _ beyond =>
    simp only [reduceCtorEq, fits_cons, false_iff]
    omega
  | case4 count v level pending next here ih =>
    rw [ih, fits_cons, Pending.size_inside]
    constructor
    · rintro ⟨rfl, fits⟩
      exact ⟨by omega, by omega, by omega, fits⟩
    · rintro ⟨rfl, -, -, fits⟩
      exact ⟨by omega, fits⟩

/-- Where the walk breaks off at the number of values, there are too many of them. -/
theorem walk_nodes (stopped : walk nodes depth count pending = .error .nodes) :
    nodes < count + pending.size := by
  fun_induction walk nodes depth count pending with
  | case1 => exact nomatch stopped
  | case2 count v level pending beyond =>
    rw [Pending.size_inside]
    omega
  | case3 => exact nomatch stopped
  | case4 count v level pending _ _ ih =>
    have further := ih stopped
    rw [Pending.size_inside]
    push_cast at further ⊢
    omega

/-- Where the walk breaks off at a level, a pending value reaches too deep. -/
theorem walk_depth (stopped : walk nodes depth count pending = .error .depth) :
    ∃ entry ∈ pending, depth + 1 < (entry.2 + entry.1.height : Int) := by
  fun_induction walk nodes depth count pending with
  | case1 => exact nomatch stopped
  | case2 => exact nomatch stopped
  | case3 count v level pending _ beyond =>
    have positive := v.height_pos
    refine ⟨_, List.mem_cons_self, ?_⟩
    dsimp only
    omega
  | case4 count v level pending _ here ih =>
    by_contra none
    push Not at none
    obtain ⟨first, others⟩ := List.forall_mem_cons.mp none
    obtain ⟨entry, among, deep⟩ := ih stopped
    have within := (List.mem_append.mp among).elim ((level_height_le.mp first).2 entry) (others entry)
    omega

end

section

variable {nodes depth : Int}

mutual

/-- Measuring a value takes the walk past it and all that is inside. -/
theorem walk_measure (v : Value) (level count : Nat) (pending : Pending) :
    walk nodes depth count ((v, level) :: pending) =
      (measure nodes depth level v count).bind (walk nodes depth · pending) := by
  rw [walk, measure.eq_def]
  dsimp only
  split
  · rfl
  · split
    · rfl
    · cases v with
      | arr vs => exact walk_measureAll vs (level + 1) (count + 1) pending
      | obj members => exact walk_measureMembers members (level + 1) (count + 1) pending
      | _ => rfl

theorem walk_measureAll (vs : List Value) (level count : Nat) (pending : Pending) :
    walk nodes depth count (vs.reverse.map (·, level) ++ pending) =
      (measureAll nodes depth level vs count).bind (walk nodes depth · pending) := by
  cases vs with
  | nil => rfl
  | cons v vs =>
    have split : ((v :: vs).reverse.map (·, level) ++ pending : Pending) =
        vs.reverse.map (·, level) ++ (v, level) :: pending := by simp
    rw [split, walk_measureAll vs, measureAll]
    cases measureAll nodes depth level vs count with
    | error excess => rfl
    | ok count => exact walk_measure v level count pending

theorem walk_measureMembers (members : List (String × Value)) (level count : Nat) (pending : Pending) :
    walk nodes depth count ((members.map (·.2)).reverse.map (·, level) ++ pending) =
      (measureMembers nodes depth level members count).bind (walk nodes depth · pending) := by
  cases members with
  | nil => rfl
  | cons member rest =>
    obtain ⟨name, v⟩ := member
    have split : ((((name, v) :: rest).map (·.2)).reverse.map (·, level) ++ pending : Pending) =
        (rest.map (·.2)).reverse.map (·, level) ++ (v, level) :: pending := by simp
    rw [split, walk_measureMembers rest, measureMembers]
    cases measureMembers nodes depth level rest count with
    | error excess => rfl
    | ok count => exact walk_measure v level count pending

end

end

section

variable {nodes depth : Int} {v : Value}

/-- The walk over a single value at the first level ends as measuring it does. -/
theorem walk_single : walk nodes depth 0 [(v, 1)] = measure nodes depth 1 v 0 := by
  rw [walk_measure]
  cases measure nodes depth 1 v 0 with
  | ok count => exact walk.eq_1 ..
  | error excess => rfl

theorem excess?_eq_some {excess : Excess} :
    excess? nodes depth v = some excess ↔ walk nodes depth 0 [(v, 1)] = .error excess := by
  rw [walk_single, excess?]
  cases measure nodes depth 1 v 0 <;> simp

theorem excess?_eq_none :
    excess? nodes depth v = none ↔ (v.nodeCount : Int) ≤ nodes ∧ (v.height : Int) ≤ depth := by
  have counted : excess? nodes depth v = none ↔ ∃ total, walk nodes depth 0 [(v, 1)] = .ok total := by
    rw [walk_single, excess?]
    cases measure nodes depth 1 v 0 <;> simp
  rw [counted]
  simp only [walk_eq_ok, exists_eq_left]
  constructor
  · rintro ⟨size, levels⟩
    have bound := size (List.cons_ne_nil _ _)
    have level := levels _ List.mem_cons_self
    simp only [Pending.size, List.map_cons, List.map_nil, List.sum_singleton] at bound level
    omega
  · rintro ⟨size, level⟩
    refine ⟨fun _ => ?_, List.forall_mem_singleton.mpr ?_⟩
    · simp only [Pending.size, List.map_cons, List.map_nil, List.sum_singleton]
      omega
    · dsimp only
      omega

theorem excess?_nodes (found : excess? nodes depth v = some .nodes) : nodes < v.nodeCount := by
  have beyond := walk_nodes (excess?_eq_some.mp found)
  simpa [Pending.size] using beyond

theorem excess?_depth (found : excess? nodes depth v = some .depth) : depth < v.height := by
  obtain ⟨entry, among, deep⟩ := walk_depth (excess?_eq_some.mp found)
  obtain rfl := List.mem_singleton.mp among
  dsimp only at deep
  omega

end

/-- The fault of a document that goes beyond a bound. -/
def Excess.fault (limits : Limits) : Excess → Fault
  | .nodes => .tooManyNodes limits.nodes
  | .depth => .tooDeep limits.depth

theorem check_of_excess {limits : Limits} {v : Value} {excess : Excess} (object : v.isObject = true)
    (found : excess? limits.nodes limits.depth v = some excess) :
    check limits v = .error (excess.fault limits) := by
  unfold check
  rw [object, Bool.not_true, if_neg Bool.false_ne_true, found]
  cases excess <;> rfl

theorem check_bounds {limits : Limits} {v document : Value} (passed : check limits v = .ok document) :
    excess? limits.nodes limits.depth v = none := by
  cases found : excess? limits.nodes limits.depth v with
  | none => rfl
  | some excess =>
    unfold check at passed
    rw [found] at passed
    split at passed
    · exact nomatch passed
    · cases excess <;> exact nomatch passed

/-- Every document that is loaded keeps within the limits. -/
theorem load_bounds {limits : Limits} {text : List Char} {document : Value}
    (loaded : load limits text = .ok document) :
    (document.nodeCount : Int) ≤ limits.nodes ∧ (document.height : Int) ≤ limits.depth :=
  excess?_eq_none.mp (check_bounds (load_checked loaded).1)

theorem load_height {limits : Limits} {text : List Char} {document : Value}
    (loaded : load limits text = .ok document) : (document.height : Int) ≤ limits.depth :=
  (load_bounds loaded).2

/-- A value passes the check of its shape exactly if it holds no more values than the limit says and nests no
deeper; otherwise a bound that it does exceed is reported, and a document is refused with the fault that
names this bound. So every document that is loaded keeps within both limits. -/
theorem shape_bounds_exact (limits : Limits) (v : Value) :
    (excess? limits.nodes limits.depth v = none ↔
        (v.nodeCount : Int) ≤ limits.nodes ∧ (v.height : Int) ≤ limits.depth) ∧
      (excess? limits.nodes limits.depth v = some .nodes → limits.nodes < v.nodeCount) ∧
      (excess? limits.nodes limits.depth v = some .depth → limits.depth < v.height) ∧
      (∀ excess, excess? limits.nodes limits.depth v = some excess → v.isObject = true →
        check limits v = .error (excess.fault limits) ∧ (excess.fault limits).isUnsafe = true) ∧
      ∀ text, load limits text = .ok v →
        (v.nodeCount : Int) ≤ limits.nodes ∧ (v.height : Int) ≤ limits.depth := by
  refine ⟨excess?_eq_none, excess?_nodes, excess?_depth, fun excess found object => ?_, fun _ => load_bounds⟩
  refine ⟨check_of_excess object found, ?_⟩
  cases excess <;> rfl

end Document

end PayloadCheck
