import PayloadCheck.InputError
import PayloadCheck.Json.Value
import PayloadCheck.Text.Surrogate

namespace PayloadCheck.Schema

open Json

structure Node where
  type : Option String
  properties : Option (List (String × Node))
  required : List String
  items : Option Node
  nullable : Bool
  ref : Option String
  extras : List (String × Value)

namespace Node

def empty : Node := ⟨none, none, [], none, false, none, []⟩

instance : Inhabited Node := ⟨empty⟩

def isRef (n : Node) : Bool := n.ref.isSome

/-- Adds a name to a list that lacks it. -/
def addName (known : List String) (name : String) : List String :=
  if known.contains name then known else known ++ [name]

/-- The strings among the elements of an array, each once, at its first place. -/
def names : Value → List String
  | .arr values => (values.filterMap Value.str?).foldl addName []
  | _ => []

/-- Sets what a keyword says, or keeps it among the rest. -/
def withKeyword (node : Node) (key : String) (v : Value) : Node :=
  if key = "type" then { node with type := v.str? }
  else if key = "required" then { node with required := names v }
  else if key = "nullable" then { node with nullable := v.isTrue }
  else if key = "$ref" then { node with ref := v.str? }
  else { node with extras := (key, v) :: node.extras }

mutual

/-- The schema that a value describes, if it is an object. -/
def ofValue? : Value → Option Node
  | .obj members => some (ofMembers members)
  | _ => none

/-- The schema that the members of an object describe. -/
def ofMembers : List (String × Value) → Node
  | [] => empty
  | (key, v) :: rest =>
    if key = "properties" then { ofMembers rest with properties := properties? v }
    else if key = "items" then { ofMembers rest with items := ofValue? v }
    else (ofMembers rest).withKeyword key v

/-- The schemas of the properties that a value lists, if it is an object. -/
def properties? : Value → Option (List (String × Node))
  | .obj members => some (ofEntries members)
  | _ => none

/-- The schema of each entry. One that is no object carries no constraint. -/
def ofEntries : List (String × Value) → List (String × Node)
  | [] => []
  | (name, v) :: rest => (name, (ofValue? v).getD empty) :: ofEntries rest

end

mutual

/-- The object that describes a schema: the keywords that differ from their defaults, then the rest
in the order in which it was read. -/
def toValue : Node → Value
  | ⟨type, properties, required, items, nullable, ref, extras⟩ =>
    .obj <|
      (match type with
        | some t => [("type", .str t)]
        | none => []) ++
      (match properties with
        | some ps => [("properties", .obj (entryValues ps))]
        | none => []) ++
      (if required.isEmpty then [] else [("required", .arr (required.map .str))]) ++
      (match items with
        | some n => [("items", toValue n)]
        | none => []) ++
      (if nullable then [("nullable", .bool true)] else []) ++
      (match ref with
        | some r => [("$ref", .str r)]
        | none => []) ++
      extras

def entryValues : List (String × Node) → List (String × Value)
  | [] => []
  | (name, n) :: rest => (name, toValue n) :: entryValues rest

end

mutual

/-- How deep schemas nest in a schema, itself included. -/
def depth : Node → Nat
  | ⟨_, properties, _, items, _, _, _⟩ =>
    1 + max (match properties with
      | some ps => depthOfEntries ps
      | none => 0) (match items with
      | some n => depth n
      | none => 0)

def depthOfEntries : List (String × Node) → Nat
  | [] => 0
  | (_, n) :: rest => max (depth n) (depthOfEntries rest)

end

/-- How deep the schemas may nest that are written back. -/
def writingLimit : Nat := 255

/-- What is said of a schema in which schemas nest too deep to be written back. -/
def unwritableMessage : String := "Circular reference detected (depth exceeded)"

/-- The object that describes a schema, unless schemas nest too deep in it to be written back. -/
def write? (n : Node) : Option Value := if writingLimit < n.depth then none else some n.toValue

mutual

/-- How many calls are open at once while the schemas in a value are read: one for each that lies in
another as its items, and two for each that does as a property. -/
def calls : Value → Nat
  | .obj members => 1 + callsOfMembers members
  | _ => 0

def callsOfMembers : List (String × Value) → Nat
  | [] => 0
  | (key, v) :: rest =>
    max (callsOfMembers rest)
      (if key = "items" then calls v else if key = "properties" then callsOfEntries v else 0)

def callsOfEntries : Value → Nat
  | .obj members => 1 + callsOfList members
  | _ => 0

def callsOfList : List (String × Value) → Nat
  | [] => 0
  | (_, v) :: rest => max (callsOfList rest) (calls v)

end

/-- The schema that a value describes, unless reading it takes more calls than there is room for. -/
def read? (room : Nat) (v : Value) : Option (Option Node) :=
  if room < calls v then none else some (ofValue? v)

mutual

/-- Whether a schema in a value has a member that is no keyword and whose name is no text. -/
def hasStrayName : Value → Bool
  | .obj members => hasStrayMember members
  | _ => false

def hasStrayMember : List (String × Value) → Bool
  | [] => false
  | (key, v) :: rest =>
    hasStrayMember rest ||
      (if key = "items" then hasStrayName v
      else if key = "properties" then hasStrayEntry v
      else !Text.isWhole key)

def hasStrayEntry : Value → Bool
  | .obj members => hasStrayListed members
  | _ => false

def hasStrayListed : List (String × Value) → Bool
  | [] => false
  | (_, v) :: rest => hasStrayListed rest || hasStrayName v

end

/-- What can go wrong while a value is read as a schema. -/
inductive Fault
  | tooDeep
  | strayName
deriving DecidableEq, Repr

mutual

/-- What goes wrong first, if anything does, while a value is read as a schema and there is room for so many
calls: the schemas inside are read before the names are looked at, those of properties before items. -/
def fault? : Value → (room : Nat) → Option Fault
  | .obj _, 0 => some .tooDeep
  | .obj members, room + 1 =>
    ((faultOfProperties? members room).or (faultOfItems? members room)).or
      (if members.all fun member => Text.isWhole member.1 then none else some .strayName)
  | _, _ => none

def faultOfProperties? : List (String × Value) → (room : Nat) → Option Fault
  | [], _ => none
  | (key, v) :: rest, room =>
    (if key = "properties" then faultOfEntries? v room else none).or (faultOfProperties? rest room)

def faultOfEntries? : Value → (room : Nat) → Option Fault
  | .obj _, 0 => some .tooDeep
  | .obj entries, room + 1 => faultOfList? entries room
  | _, _ => none

def faultOfList? : List (String × Value) → (room : Nat) → Option Fault
  | [], _ => none
  | (_, v) :: rest, room => (fault? v room).or (faultOfList? rest room)

def faultOfItems? : List (String × Value) → (room : Nat) → Option Fault
  | [], _ => none
  | (key, v) :: rest, room =>
    (if key = "items" then fault? v room else none).or (faultOfItems? rest room)

end

/-- The error of a schema with a member whose name is no text. -/
def strayName : InputError := ⟨[], .notText⟩

/-- The error that reading a value as a schema ends with. A value for which there is no room is not an
error: it is given up. -/
def readError? (room : Nat) (v : Value) : Option InputError :=
  match fault? v room with
  | some .strayName => some strayName
  | _ => none

end Node

end PayloadCheck.Schema
