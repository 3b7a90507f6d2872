import PayloadCheck.Json.Value

namespace PayloadCheck.Document

open Json

inductive Excess
  | nodes
  | depth
deriving DecidableEq, Repr

mutual

/-- Counts a value at a depth and all values in it, after those counted before. -/
def measure (nodes depth : Int) (level : Nat) : Value → (count : Nat) → Except Excess Nat
  | v, count =>
    if nodes < count + 1 then .error .nodes
    else if depth < level then .error .depth
    else
      match v with
      | .arr vs => measureAll nodes depth (level + 1) vs (count + 1)
      | .obj members => measureMembers nodes depth (level + 1) members (count + 1)
      | _ => .ok (count + 1)

def measureAll (nodes depth : Int) (level : Nat) : List Value → (count : Nat) → Except Excess Nat
  | [], count => .ok count
  | v :: vs, count =>
    match measureAll nodes depth level vs count with
    | .ok count => measure nodes depth level v count
    | .error excess => .error excess

def measureMembers (nodes depth : Int) (level : Nat) :
    List (String × Value) → (count : Nat) → Except Excess Nat
  | [], count => .ok count
  | (_, v) :: rest, count =>
    match measureMembers nodes depth level rest count with
    | .ok count => measure nodes depth level v count
    | .error excess => .error excess

end

/-- The bound that a document exceeds. -/
def excess? (nodes depth : Int) (v : Value) : Option Excess :=
  match measure nodes depth 1 v 0 with
  | .ok _ => none
  | .error excess => some excess

end PayloadCheck.Document
