import PayloadCheck.Proofs.Schema.Dereference
import PayloadCheck.Proofs.Schema.Ranked
import PayloadCheck.Schema.Check

namespace PayloadCheck.Schema

open Json

/-- A value has a declared type. Integers count as numbers, and whole numbers as integers. -/
inductive Matches : Value → String → Prop
  | kind (v : Value) : Matches v (kindOf v).name
  | integer (n : Int) : Matches (.int n) Kind.number.name
  | whole {x : Number.Binary64} : x.isIntegral = true → Matches (.float x) Kind.integer.name

/-- How a value is met on the way into a payload. -/
inductive Place
  | root
  | member
  | element
deriving DecidableEq, Repr

/-- A value, how it is met, and the schema that governs it. -/
structure Focus where
  place : Place
  value : Value
  schema : Node

/-- The members of an object are checked. At the root this asks for nothing; further in, the schema has
to be one of an object with properties. -/
def Focus.Opens (f : Focus) : Prop :=
  f.place = .root ∨ f.schema.type = some Kind.object.name ∧ f.schema.properties.isSome = true

/-- A null that the schema of a member allows. -/
def Focus.Excused (f : Focus) : Prop :=
  f.place = .member ∧ f.value = .null ∧ f.schema.nullable = true

/-- One step further in, with its number. The required names of a schema are numbered first, then its
properties; the elements of an array are numbered by their indices. The elements of an array inside an
array are not looked at. -/
inductive Inward (references : Option (References Id)) : Focus → Nat → Step → Focus → Prop
  | member {f members properties j name property v resolved} :
      f.value = .obj members → f.Opens → f.schema.properties = some properties →
      properties[j]? = some (name, property) → lookup? name members = some v →
      Dereferenced references property resolved →
      Inward references f (f.schema.required.length + j) (.name name) ⟨.member, v, resolved⟩
  | element {f elements items i v resolved} :
      f.value = .arr elements → f.place ≠ .element → f.schema.type = some Kind.array.name →
      f.schema.items = some items → elements[i]? = some v → Dereferenced references items resolved →
      Inward references f i (.index i) ⟨.element, v, resolved⟩

/-- A location is checked, seen from a value that is. -/
inductive Checked (references : Option (References Id)) :
    Focus → Rank → Location → Focus → Prop
  | here (f : Focus) : Checked references f [] [] f
  | inside {f g h k step rank location} :
      Inward references f k step g → Checked references g rank location h →
      Checked references f (k :: rank) (step :: location) h

/-- Something is wrong at a location: a required member is not there, or the value there is not of the
type that its schema declares. No type is asked for at the root. -/
inductive Faulty (references : Option (References Id)) (start : Focus) :
    Rank → Location → Breach → Prop
  | missing {rank location f members k name} :
      Checked references start rank location f → f.value = .obj members → f.Opens →
      f.schema.required[k]? = some name → lookup? name members = none →
      Faulty references start (rank ++ [k]) (location ++ [.name name]) .missing
  | mismatch {rank location f declared} :
      Checked references start rank location f → f.place ≠ .root →
      f.schema.type = some declared → ¬ Matches f.value declared → ¬ f.Excused →
      Faulty references start rank location (.mismatch declared (kindOf f.value))

/-- A location as it is written: a dot between names, and no dot before an index or before a name that
stands first. -/
inductive Rendered : Location → String → Prop
  | empty : Rendered [] ""
  | first (s : String) : Rendered [.name s] s
  | name {location text} (s : String) : Rendered location text → location ≠ [] →
      Rendered (location ++ [.name s]) (text ++ "." ++ s)
  | index {location text} (i : Nat) : Rendered location text →
      Rendered (location ++ [.index i]) (text ++ "[" ++ toString i ++ "]")

/-- What is said of a type that a value does not have. -/
def mismatchText (subject declared : String) (found : Kind) : String :=
  subject ++ " must be of type " ++ declared ++ ", got " ++ found.name

/-- The message about a location: it repeats the last name, with the index behind it for an element. -/
inductive Explained : Location → Breach → String → Prop
  | missing (outer : Location) (s : String) :
      Explained (outer ++ [.name s]) .missing ("Required field \"" ++ s ++ "\" is missing")
  | member (outer : Location) (s declared : String) (found : Kind) :
      Explained (outer ++ [.name s]) (.mismatch declared found)
        (mismatchText ("Field \"" ++ s ++ "\"") declared found)
  | element (outer : Location) (s : String) (i : Nat) (declared : String) (found : Kind) :
      Explained (outer ++ [.name s, .index i]) (.mismatch declared found)
        (mismatchText ("Array element \"" ++ s ++ "[" ++ toString i ++ "]\"") declared found)
  | rootElement (i : Nat) (declared : String) (found : Kind) :
      Explained [.index i] (.mismatch declared found)
        (mismatchText ("Array element \"[" ++ toString i ++ "]\"") declared found)

/-- The errors that a payload deserves under the schema at its root, by their ranks. -/
def Deserves (references : Option (References Id)) (data : Value) (root : Node) (rank : Rank)
    (error : SchemaError) : Prop :=
  ∃ location breach, Faulty references ⟨.root, data, root⟩ rank location breach ∧
    Rendered location error.path ∧ Explained location breach error.message

end PayloadCheck.Schema

namespace PayloadCheck.Json.Value

mutual

/-- How many calls are open at once, at the most, while a value is checked: one for each object, one for
each member and one for each array. -/
def callDepth : Value → Nat
  | .obj members => 1 + callDepthOfMembers members
  | .arr elements => 1 + callDepthOfElements elements
  | _ => 0

def callDepthOfElements : List Value → Nat
  | [] => 0
  | v :: rest => max v.callDepth (callDepthOfElements rest)

def callDepthOfMembers : List (String × Value) → Nat
  | [] => 0
  | (_, v) :: rest => max (1 + v.callDepth) (callDepthOfMembers rest)

end

theorem callDepth_le_elements {elements : List Value} {v : Value} (inside : v ∈ elements) :
    v.callDepth ≤ callDepthOfElements elements := by
  induction elements with
  | nil => exact nomatch inside
  | cons first rest ih =>
    rw [callDepthOfElements]
    rcases List.mem_cons.mp inside with rfl | later
    · exact Nat.le_max_left _ _
    · exact Nat.le_trans (ih later) (Nat.le_max_right _ _)

theorem callDepth_le_of_mem {members : List (String × Value)} {member : String × Value}
    (inside : member ∈ members) : 1 + member.2.callDepth ≤ callDepthOfMembers members := by
  induction members with
  | nil => exact nomatch inside
  | cons first rest ih =>
    obtain ⟨key, value⟩ := first
    rw [callDepthOfMembers]
    rcases List.mem_cons.mp inside with rfl | later
    · exact Nat.le_max_left _ _
    · exact Nat.le_trans (ih later) (Nat.le_max_right _ _)

theorem callDepth_lt_members {members : List (String × Value)} {name : String} {v : Value}
    (found : lookup? name members = some v) : 1 + v.callDepth ≤ callDepthOfMembers members :=
  callDepth_le_of_mem (mem_of_lookup? found)

theorem callDepth_lt_children {v w : Value} (inside : w ∈ v.children) : w.callDepth < v.callDepth := by
  cases v with
  | arr elements =>
    have within : w.callDepth ≤ callDepthOfElements elements := callDepth_le_elements inside
    simp only [callDepth]
    omega
  | obj members =>
    obtain ⟨member, listed, rfl⟩ := List.mem_map.mp inside
    have within := callDepth_le_of_mem listed
    simp only [callDepth]
    omega
  | _ => exact nomatch inside

end PayloadCheck.Json.Value
