import PayloadCheck.Schema.Kind
import PayloadCheck.Schema.Location
import PayloadCheck.Schema.Reference

namespace PayloadCheck.Schema

open Json

/-- What is violated at a location. -/
inductive Breach
  | missing
  | mismatch (declared : String) (found : Kind)
deriving DecidableEq, Repr

structure Violation where
  location : Location
  breach : Breach
deriving DecidableEq, Repr

/-- A violation in words. -/
structure SchemaError where
  path : String
  message : String
deriving DecidableEq, Repr

namespace Violation

def message (v : Violation) : String :=
  match v.breach, v.location.getLast? with
  | .missing, some (.name s) => "Required field \"" ++ s ++ "\" is missing"
  | .missing, _ => "Required field \"" ++ v.location.text ++ "\" is missing"
  | .mismatch declared found, some (.index _) =>
    "Array element \"" ++ v.location.tail.text ++ "\" must be of type " ++ declared ++ ", got " ++
      found.name
  | .mismatch declared found, _ =>
    "Field \"" ++ v.location.tail.text ++ "\" must be of type " ++ declared ++ ", got " ++ found.name

def report (v : Violation) : SchemaError := ⟨v.location.text, v.message⟩

/-- The violation seen from further out. -/
def under (outer : Location) (v : Violation) : Violation := ⟨outer ++ v.location, v.breach⟩

end Violation

variable {m : Type → Type} [Monad m]

/-- The violations that a check finds, unless there is no room for it. Looking up references on the way
may have an effect. -/
abbrev Finding (m : Type → Type) := OptionT m (List Violation)

/-- The violations of a nested value: how `descend` checks an object against a schema. -/
abbrev Descent (m : Type → Type) := List (String × Value) → Node → Finding m

/-- A value whose declared type is another, unless it is a null that is excused. -/
def typeBreach (location : Location) (v : Value) (node : Node) (excused : Bool) : List Violation :=
  match node.type with
  | some declared =>
    if hasType v declared || excused then [] else [⟨location, .mismatch declared (kindOf v)⟩]
  | none => []

/-- The violations inside an object at a location, if its schema is one of an object with
properties. -/
def insideObject (descend : Descent m) (location : Location) (v : Value) (node : Node) : Finding m :=
  match v with
  | .obj members =>
    if node.type = some Kind.object.name && node.properties.isSome then do
      let found ← descend members node
      return found.map (·.under location)
    else return []
  | _ => return []

def checkElement (descend : Descent m) (location : Location) (node : Node) (v : Value) :
    Finding m := do
  let inside ← insideObject descend location v node
  return typeBreach location v node false ++ inside

/-- The violations of the elements of an array from an index on. -/
def checkElements (descend : Descent m) (outer : Location) (node : Node) :
    (index : Nat) → List Value → Finding m
  | _, [] => return []
  | index, v :: rest => do
    let here ← checkElement descend (outer ++ [.index index]) node v
    let behind ← checkElements descend outer node (index + 1) rest
    return here ++ behind

/-- The violations inside an array at a location, if its schema is one of an array with items. -/
def insideArray (references : Option (References m)) (descend : Descent m) (location : Location)
    (v : Value) (node : Node) : Finding m :=
  match v, node.items with
  | .arr elements, some items =>
    if node.type = some Kind.array.name then do
      let resolved ← OptionT.lift (follow references items)
      checkElements descend location resolved 0 elements
    else return []
  | _, _ => return []

/-- The violations of a member of an object. A null is excused where the schema allows it. -/
def checkMember (references : Nat → Option (References m)) (descend : Nat → Descent m) (name : String)
    (node : Node) (v : Value) : Finding m := do
  let location := [Step.name name]
  let objects ← insideObject (descend 1) location v node
  let elements ← insideArray (references 2) (descend 2) location v node
  return typeBreach location v node (v.isNull && node.nullable) ++ objects ++ elements

/-- The violations of the members that the properties of a schema mention. -/
def checkMembers (references : Nat → Option (References m)) (descend : Nat → Descent m)
    (members : List (String × Value)) : List (String × Node) → Finding m
  | [] => return []
  | (name, node) :: rest =>
    match lookup? name members with
    | none => checkMembers references descend members rest
    | some v => do
      let resolved ← OptionT.lift (follow (references 0) node)
      let first ← checkMember references descend name resolved v
      let others ← checkMembers references descend members rest
      return first ++ others

/-- The required names that an object lacks. -/
def missing (members : List (String × Value)) (required : List String) : List Violation :=
  (required.filter fun name => (lookup? name members).isNone).map fun name =>
    ⟨[.name name], .missing⟩

/-- The violations of an object, where of `room` calls so many are taken: the call for the object itself
has to be left. An object in a member takes one call more for the member, and one in an array
another for the array. -/
def checkObject (references : Nat → Option (References m)) : (room taken : Nat) → Descent m
  | 0, _, _, _ => failure
  | room + 1, 0, members, node => do
    let inside ← checkMembers (fun taken => references (room - taken))
      (checkObject references room) members (node.properties.getD [])
    return missing members node.required ++ inside
  | room + 1, taken + 1, members, node => checkObject references room taken members node

/-- The violations of a value, where there is room for so many calls. At the root only objects, and the
elements of an array where the schema is one of an array with items, are checked. -/
def violations (references : Nat → Option (References m)) (room : Nat) (v : Value) (node : Node) :
    Finding m := do
  let resolved ← OptionT.lift (follow (references room) node)
  match v with
  | .obj members => checkObject references room 0 members resolved
  | _ => insideArray (references (room - 1)) (checkObject references room 1) [] v resolved

/-- The report on a value that is nested too deep. -/
def tooDeep : SchemaError := ⟨"", "Payload is nested too deeply to validate"⟩

/-- The errors to report for what a check found. -/
def reports : Option (List Violation) → List SchemaError
  | some found => found.map Violation.report
  | none => [tooDeep]

def check (references : Nat → Option (References m)) (room : Nat) (v : Value) (node : Node) :
    m (List SchemaError) :=
  reports <$> (violations references room v node).run

/-- Checks a value against the schema that another value describes; one that is no object demands
nothing. -/
def checkRaw (references : Nat → Option (References m)) (room : Nat) (v raw : Value) :
    m (List SchemaError) :=
  match Node.read? room raw with
  | none => return [tooDeep]
  | some none => return []
  | some (some node) => check references room v node

end PayloadCheck.Schema
