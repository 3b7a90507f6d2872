import PayloadCheck.Entries
import PayloadCheck.Number.Binary64

namespace PayloadCheck.Json

open Number

inductive Value
  | null
  | bool (b : Bool)
  | int (n : Int)
  | float (x : Binary64)
  | str (s : String)
  | arr (elements : List Value)
  | obj (members : List (String × Value))
deriving Repr, Inhabited

namespace Value

def members? : Value → Option (List (String × Value))
  | .obj members => some members
  | _ => none

def get? (v : Value) (name : String) : Option Value := v.members?.bind (lookup? name)

/-- Follows names through nested objects. -/
def dig? : Value → List String → Option Value
  | v, [] => some v
  | v, name :: rest => (v.get? name).bind (·.dig? rest)

def isObject (v : Value) : Bool := v.members?.isSome

def isNull : Value → Bool
  | .null => true
  | _ => false

/-- The truth of a value; anything but a truth value is false. -/
def isTrue : Value → Bool
  | .bool b => b
  | _ => false

def str? : Value → Option String
  | .str s => some s
  | _ => none

/-- The values that stand directly in a value. -/
def children : Value → List Value
  | .arr elements => elements
  | .obj members => members.map (·.2)
  | _ => []

end Value

end PayloadCheck.Json
