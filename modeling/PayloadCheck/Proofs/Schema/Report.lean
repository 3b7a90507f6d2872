import Mathlib.Data.List.Induction
import Mathlib.Data.List.TakeDrop
import PayloadCheck.Proofs.Schema.Exactness
import PayloadCheck.Proofs.Spec.Legible

namespace PayloadCheck.Schema

open Json

namespace Location

theorem text_append_index (location : Location) (i : Nat) :
    text (location ++ [.index i]) = text location ++ "[" ++ toString i ++ "]" := by
  rcases location with _ | ⟨_ | _, rest⟩ <;> simp [text, stepText, String.append_assoc]

theorem text_append_name {location : Location} (inner : location ≠ []) (s : String) :
    text (location ++ [.name s]) = text location ++ "." ++ s := by
  rcases location with _ | ⟨_ | _, rest⟩
  · exact absurd rfl inner
  all_goals simp [text, stepText, String.append_assoc]

theorem text_single_name (s : String) : text [.name s] = s := by simp [text]

/-- A location is written in one way. -/
theorem rendered_iff {location : Location} {path : String} :
    Rendered location path ↔ path = location.text := by
  constructor
  · intro rendered
    induction rendered with
    | empty => rfl
    | first s => rw [text_single_name]
    | name s _ inner ih => rw [text_append_name inner, ih]
    | index i _ ih => rw [text_append_index, ih]
  · rintro rfl
    induction location using List.reverseRecOn with
    | nil => exact .empty
    | append_singleton outer step ih =>
      cases step with
      | index i => exact text_append_index outer i ▸ .index i ih
      | name s =>
        by_cases top : outer = []
        · subst top
          exact (text_single_name s).symm ▸ .first s
        · exact text_append_name top s ▸ .name s ih top

@[simp] theorem tail_name (outer : Location) (s : String) : tail (outer ++ [.name s]) = [.name s] := by
  simp [tail, List.span_eq_takeWhile_dropWhile]

@[simp] theorem tail_element (outer : Location) (s : String) (i : Nat) :
    tail (outer ++ [.name s, .index i]) = [.name s, .index i] := by
  simp [tail, List.span_eq_takeWhile_dropWhile]

@[simp] theorem tail_rootElement (i : Nat) : tail [.index i] = [.index i] := by
  simp [tail, List.span_eq_takeWhile_dropWhile]

end Location

/-- A fault is explained in one way only. -/
theorem Explained.message_eq {location : Location} {breach : Breach} {message : String}
    (explained : Explained location breach message) :
    message = Violation.message ⟨location, breach⟩ := by
  cases explained with
  | missing outer s => simp [Violation.message]
  | member outer s declared found =>
    simp [Violation.message, mismatchText, Location.text, String.append_assoc]
  | element outer s i declared found =>
    simp [Violation.message, mismatchText, Location.text, Location.stepText, String.append_assoc]
  | rootElement i declared found =>
    have opened : "Array element \"[" = "Array element \"" ++ "[" := by decide
    simp [Violation.message, mismatchText, Location.text, Location.stepText, String.append_assoc]
    rw [opened, String.append_assoc]

/-- The last steps of a location tell how its value is met. No element of an array is met inside another
element. -/
theorem Checked.last_steps {references : Option (References Id)} {f g : Focus} {rank : Rank}
    {location : Location} (checked : Checked references f rank location g) :
    location = [] ∧ g = f ∨ (∃ outer s, location = outer ++ [.name s]) ∨
      (∃ outer s i, location = outer ++ [.name s, .index i]) ∨
      ∃ i, location = [.index i] ∧ f.place ≠ .element := by
  induction checked with
  | here => exact Or.inl ⟨rfl, rfl⟩
  | @inside f g h k step rank location inward _ ih =>
    rcases ih with ⟨rfl, rfl⟩ | ⟨outer, s, rfl⟩ | ⟨outer, s, i, rfl⟩ | ⟨i, rfl, looked⟩
    · cases inward with
      | member => exact Or.inr (Or.inl ⟨[], _, rfl⟩)
      | element _ looked => exact Or.inr (Or.inr (Or.inr ⟨_, rfl, looked⟩))
    · exact Or.inr (Or.inl ⟨step :: outer, s, rfl⟩)
    · exact Or.inr (Or.inr (Or.inl ⟨step :: outer, s, i, rfl⟩))
    · cases inward with
      | member => exact Or.inr (Or.inr (Or.inl ⟨[], _, i, rfl⟩))
      | element => exact absurd rfl looked

/-- Every fault of a payload can be explained. -/
theorem Faulty.explained {references : Option (References Id)} {f : Focus} {rank : Rank}
    {location : Location} {breach : Breach} (root : f.place = .root)
    (faulty : Faulty references f rank location breach) :
    ∃ message, Explained location breach message := by
  cases faulty with
  | missing => exact ⟨_, .missing _ _⟩
  | mismatch checked notRoot =>
    rcases checked.last_steps with ⟨rfl, rfl⟩ | ⟨outer, s, rfl⟩ | ⟨outer, s, i, rfl⟩ | ⟨i, rfl, _⟩
    · exact absurd root notRoot
    · exact ⟨_, .member outer s _ _⟩
    · exact ⟨_, .element outer s i _ _⟩
    · exact ⟨_, .rootElement i _ _⟩

theorem deserves_iff {references : Option (References Id)} {data : Value} {root : Node} {rank : Rank}
    {error : SchemaError} :
    Deserves references data root rank error ↔
      ∃ b : Violation, Faulty references ⟨.root, data, root⟩ rank b.location b.breach ∧
        error = b.report := by
  constructor
  · rintro ⟨location, breach, faulty, rendered, explained⟩
    refine ⟨⟨location, breach⟩, faulty, ?_⟩
    obtain ⟨path, message⟩ := error
    exact congrArg₂ SchemaError.mk (Location.rendered_iff.mp rendered) explained.message_eq
  · rintro ⟨⟨location, breach⟩, faulty, rfl⟩
    obtain ⟨message, explained⟩ := faulty.explained rfl
    rw [explained.message_eq] at explained
    exact ⟨location, breach, faulty, Location.rendered_iff.mpr rfl, explained⟩

end PayloadCheck.Schema

namespace PayloadCheck

open Json Schema

/-- The schema that a target gives where there is room for so many calls. A schema that is still to be read
has to be an object, and there has to be room to read it. -/
inductive Target.Gives (room : Nat) : Target → Node → Prop
  | node (n : Node) : Gives room (.node n) n
  | raw {members} : Node.calls (.obj members) ≤ room → Gives room (.raw (.obj members)) (Node.ofMembers members)

/-- A schema that has to be read first is read without a fault. -/
theorem Target.Gives.check_eq {room : Nat} {target : Target} {schema : Node}
    (gives : target.Gives room schema) (references : Nat → Option (References Id)) (data : Value) :
    Id.run (target.check references room data) = Id.run (Schema.check references room data schema) := by
  cases gives with
  | node => rfl
  | raw shallow =>
    simp only [Target.check, checkRaw, Node.read?, Nat.not_lt.mpr shallow, if_false, Node.ofValue?]

/-- Checks a payload where references are looked up in a resolver of the document, which has been asked
before. -/
def Target.checkAfter (asked : List Spec.Resolver.Query) (room : Nat) (document : Option Value)
    (data : Value) (target : Target) : Except InputError (List SchemaError) :=
  (target.check (fun k => document.map (Spec.Resolver.references k)) room data
    (Spec.Resolver.askAll room (.ofDocument (document.getD .null)) asked).2).1

/-- A check whose references are looked up in a resolver has the result of one that looks them up in the
document, whatever the resolver has been asked before. -/
theorem Target.checkAfter_eq {room : Nat} {document : Option Value} {data : Value}
    (readable : ∀ spec ∈ document, Spec.Legible spec ∧ Spec.Spares spec room data.callDepth)
    (asked : List Spec.Resolver.Query) (target : Target) :
    target.checkAfter asked room document data =
      .ok (Id.run (target.check (steady (document.map (Spec.references room))) room data)) := by
  obtain ⟨-, same, sound⟩ :=
    Spec.Resolver.askAll_answers _ room asked rfl (Spec.Resolver.ofDocument_sound room (document.getD .null))
  have mirrors := Spec.Resolver.references_mirror fun spec given => (readable spec given).2
  obtain ⟨answer, -, -⟩ := Simulation.target_answers mirrors target _ same sound
  have faultless := Simulation.faultless_mirrors (fun spec given => (readable spec given).1) room
    data.callDepth
  exact answer.trans (Simulation.target_answers faultless target)

/-- Checking a value looks references up in a resolver that has not been asked before. -/
theorem validate_eq {v schema : Value} {d : Demand} (read : Node.readError? d.room schema = none) :
    validate v schema d = (Target.raw schema).checkAfter [] d.room d.document v := by
  rw [validate, Demand.outright, read]
  rfl

theorem validate_error {v schema : Value} {d : Demand} {e : InputError}
    (unread : Node.readError? d.room schema = some e) : validate v schema d = .error e := by
  rw [validate, Demand.outright, unread]
  rfl

/-- A document with the schema of a tree, which refers to itself. -/
def treeDocument : Value :=
  .obj [("components", .obj [("schemas", .obj [("Node", .obj
    [("type", .str "object"), ("required", .arr [.str "name"]),
      ("properties", .obj [("name", .obj [("type", .str "string")]),
        ("children", .obj [("type", .str "array"),
          ("items", .obj [("$ref", .str "#/components/schemas/Node")])])])])])])]

def treeReference : Value := .obj [("$ref", .str "#/components/schemas/Node")]

/-- The references of the document about trees. -/
def treeReferences : Option (References Id) := some (Spec.references standardRoom treeDocument)

/-- Of the children of the first child, one has no name and another a number for a name. -/
def treePayload : Value :=
  .obj [("name", .str "a"), ("children", .arr
    [.obj [("name", .str "b"), ("children", .arr [.obj [("name", .int 3)], .obj []])], .null])]

end PayloadCheck
