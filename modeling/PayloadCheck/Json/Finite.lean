import PayloadCheck.Json.Value
import PayloadCheck.Text.Surrogate

namespace PayloadCheck.Json

open Number

def isFiniteNumber : Binary64 → Bool
  | .finite _ _ _ => true
  | .infinite _ => false
  | .nan => false

namespace Value

mutual

def isFinite : Value → Bool
  | .null => true
  | .bool _ => true
  | .int _ => true
  | .float x => isFiniteNumber x
  | .str _ => true
  | .arr vs => areFinite vs
  | .obj members => haveFinite members

def areFinite : List Value → Bool
  | [] => true
  | v :: vs => v.isFinite && areFinite vs

/-- Whether all numbers in the values of all members are finite. -/
def haveFinite : List (String × Value) → Bool
  | [] => true
  | (_, v) :: rest => v.isFinite && haveFinite rest

end

mutual

/-- Whether all names and texts in a value consist of characters alone. -/
def isWhole : Value → Bool
  | .str s => Text.isWhole s
  | .arr vs => areWhole vs
  | .obj members => haveWhole members
  | _ => true

def areWhole : List Value → Bool
  | [] => true
  | v :: vs => v.isWhole && areWhole vs

/-- Whether the names of members, and all names and texts in their values, consist of characters
alone. -/
def haveWhole : List (String × Value) → Bool
  | [] => true
  | (name, v) :: rest => Text.isWhole name && v.isWhole && haveWhole rest

end

/-- A name as an answer has it: each octet of what is no character is replaced. -/
def sentName (name : String) : String :=
  String.ofList (name.toList.flatMap fun c =>
    if Text.isUnpaired c then ['\uFFFD', '\uFFFD', '\uFFFD'] else [c])

mutual

/-- The value as an answer has it: null for each number that is not finite, and names of characters
alone. -/
def sent : Value → Value
  | .float x => if isFiniteNumber x then .float x else .null
  | .arr vs => .arr (sentElements vs)
  | .obj members => .obj (sentMembers members)
  | v => v

def sentElements : List Value → List Value
  | [] => []
  | v :: vs => v.sent :: sentElements vs

def sentMembers : List (String × Value) → List (String × Value)
  | [] => []
  | (name, v) :: rest => (sentName name, v.sent) :: sentMembers rest

end

end Value

end PayloadCheck.Json
