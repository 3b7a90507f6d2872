import PayloadCheck.Proofs.Document.NamesOnce
import PayloadCheck.Proofs.Json.Plain

namespace PayloadCheck

namespace Json.Value

mutual

/-- The number of levels of a value. One that holds no other has one level. -/
def height : Value → Nat
  | .arr vs => 1 + heightOfElements vs
  | .obj members => 1 + heightOfMembers members
  | _ => 1

def heightOfElements : List Value → Nat
  | [] => 0
  | v :: vs => max (height v) (heightOfElements vs)

def heightOfMembers : List (String × Value) → Nat
  | [] => 0
  | (_, v) :: rest => max (height v) (heightOfMembers rest)

end

theorem heightOfElements_le {vs : List Value} {d : Nat} :
    heightOfElements vs ≤ d ↔ ∀ v ∈ vs, v.height ≤ d := by
  induction vs with
  | nil => simp [heightOfElements]
  | cons v vs ih => simp [heightOfElements, ih]

theorem heightOfMembers_le {members : List (String × Value)} {d : Nat} :
    heightOfMembers members ≤ d ↔ ∀ member ∈ members, member.2.height ≤ d := by
  induction members with
  | nil => simp [heightOfMembers]
  | cons member rest ih => simp [heightOfMembers, ih]

theorem height_pos (v : Value) : 0 < v.height := by
  cases v <;> simp only [height] <;> omega

theorem height_le {v : Value} {d : Nat} : v.height ≤ d + 1 ↔ ∀ w ∈ v.children, w.height ≤ d := by
  cases v with
  | arr vs =>
    rw [height, children, ← heightOfElements_le]
    omega
  | obj members =>
    rw [height, children, List.forall_mem_map, ← heightOfMembers_le]
    omega
  | _ => simp [height, children]

end Json.Value

end PayloadCheck
