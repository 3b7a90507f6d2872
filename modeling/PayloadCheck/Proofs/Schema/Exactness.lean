import PayloadCheck.Outcome
import PayloadCheck.Proofs.Schema.CheckedLocation
import PayloadCheck.Proofs.Schema.Simulation

namespace PayloadCheck.Schema

open Json

theorem hasType_iff {v : Value} {declared : String} : hasType v declared = true ↔ Matches v declared := by
  constructor
  · intro typed
    rcases Bool.or_eq_true_iff.mp typed with own | other
    · rw [beq_iff_eq] at own
      exact own ▸ .kind v
    · cases v with
      | int n => exact (beq_iff_eq.mp other) ▸ .integer n
      | float x =>
        obtain ⟨named, whole⟩ := Bool.and_eq_true_iff.mp other
        exact (beq_iff_eq.mp named) ▸ .whole whole
      | _ => cases other
  · rintro (_ | n | whole)
    · simp [hasType]
    · simp [hasType]
    · simp [hasType, whole]

@[simp] theorem isNull_iff {v : Value} : v.isNull = true ↔ v = .null := by
  cases v <;> simp [Value.isNull]

namespace Violation

@[simp] theorem under_nil (v : Violation) : v.under [] = v := rfl

theorem under_under (v : Violation) (outer inner : Location) :
    (v.under inner).under outer = v.under (outer ++ inner) := by
  simp [under]

@[simp] theorem map_under_nil (found : List Violation) : found.map (·.under []) = found := by
  simp

end Violation

/-- What is wrong inside a value, with locations that start at the value. -/
inductive Breaks (references : Option (References Id)) : Focus → Rank → Violation → Prop
  | missing {f members k name} :
      f.value = .obj members → f.Opens → f.schema.required[k]? = some name →
      lookup? name members = none → Breaks references f [k] ⟨[.name name], .missing⟩
  | mismatch {f declared} :
      f.place ≠ .root → f.schema.type = some declared → ¬ Matches f.value declared → ¬ f.Excused →
      Breaks references f [] ⟨[], .mismatch declared (kindOf f.value)⟩
  | inside {f g k step rank v} : Inward references f k step g → Breaks references g rank v →
      Breaks references f (k :: rank) (v.under [step])

/-- The faults behind a value that is checked are faults of the payload. -/
theorem Checked.faulty {references : Option (References Id)} {f g : Focus} {k : Nat} {step : Step}
    {rank : Rank} {location : Location} {breach : Breach} (inward : Inward references f k step g)
    (faulty : Faulty references g rank location breach) :
    Faulty references f (k :: rank) (step :: location) breach := by
  cases faulty with
  | missing checked isObject opens listed absent =>
    exact .missing (.inside inward checked) isObject opens listed absent
  | mismatch checked notRoot declares differs strict =>
    exact .mismatch (.inside inward checked) notRoot declares differs strict

theorem Faulty.breaks {references : Option (References Id)} {f : Focus} {rank : Rank}
    {location : Location} {breach : Breach} (faulty : Faulty references f rank location breach) :
    Breaks references f rank ⟨location, breach⟩ := by
  cases faulty with
  | missing checked isObject opens listed absent =>
    induction checked with
    | here => exact .missing isObject opens listed absent
    | inside inward _ ih => exact .inside inward (ih isObject opens listed)
  | mismatch checked notRoot declares differs strict =>
    induction checked with
    | here => exact .mismatch notRoot declares differs strict
    | inside inward _ ih => exact .inside inward (ih notRoot declares differs strict)

theorem Breaks.faulty {references : Option (References Id)} {f : Focus} {rank : Rank}
    {v : Violation} (breaks : Breaks references f rank v) :
    Faulty references f rank v.location v.breach := by
  induction breaks with
  | @missing f _ _ _ isObject opens listed absent =>
    have here : Checked references f [] [] f := .here f
    exact .missing here isObject opens listed absent
  | mismatch notRoot declares differs strict =>
    exact .mismatch (.here _) notRoot declares differs strict
  | inside inward _ ih => exact Checked.faulty inward ih

/-- What is wrong behind a value, its own type aside. -/
def BreaksWithin (references : Option (References Id)) (f : Focus) (rank : Rank) (v : Violation) :
    Prop :=
  rank ≠ [] ∧ Breaks references f rank v

/-- A required name that an object lacks. -/
def Lacks (members : List (String × Value)) (_ : Nat) (name : String) (rank : Rank) (v : Violation) :
    Prop :=
  rank = [] ∧ lookup? name members = none ∧ v = ⟨[.name name], .missing⟩

/-- What is wrong in the member that a property governs. -/
def BreaksMember (references : Option (References Id)) (members : List (String × Value)) (_ : Nat)
    (property : String × Node) (rank : Rank) (v : Violation) : Prop :=
  ∃ value inner, lookup? property.1 members = some value ∧
    Breaks references ⟨.member, value, Id.run (follow references property.2)⟩ rank inner ∧
    v = inner.under [.name property.1]

/-- What is wrong in an element of an array. -/
def BreaksElement (references : Option (References Id)) (resolved : Node) (outer : Location)
    (index : Nat) (value : Value) (rank : Rank) (v : Violation) : Prop :=
  ∃ inner, Breaks references ⟨.element, value, resolved⟩ rank inner ∧
    v = inner.under (outer ++ [.index index])

section Shapes

variable {references : Option (References Id)} {place : Place} {node : Node} {rank : Rank}
  {v : Violation}

theorem breaksWithin_object (bounded : ∀ table ∈ references, table.Bounded)
    {members : List (String × Value)} (opens : Focus.Opens ⟨place, .obj members, node⟩) :
    BreaksWithin references ⟨place, .obj members, node⟩ rank v ↔
      Numbered 0 node.required (Lacks members) rank v ∨
        Numbered node.required.length (node.properties.getD []) (BreaksMember references members)
          rank v := by
  constructor
  · rintro ⟨nonempty, breaks⟩
    cases breaks with
    | @missing _ members' k name isObject _ listed absent =>
      cases isObject
      exact Or.inl ⟨k, name, [], listed, by simp, rfl, absent, rfl⟩
    | mismatch => exact absurd rfl nonempty
    | inside inward rest =>
      cases inward with
      | member isObject _ declared listed found ends =>
        cases isObject
        obtain rfl := (dereferenced_iff bounded).mp ends
        refine Or.inr ⟨_, (_, _), _, ?_, rfl, _, _, found, rest, rfl⟩
        simpa only [show node.properties = _ from declared, Option.getD_some] using listed
      | element isArray => cases isArray
  · rintro (⟨k, name, _, listed, rfl, rfl, absent, rfl⟩ |
      ⟨j, ⟨name, property⟩, inner, listed, rfl, value, w, found, rest, rfl⟩)
    · simp only [Nat.zero_add]
      exact ⟨List.cons_ne_nil _ _, .missing rfl opens listed absent⟩
    · refine ⟨List.cons_ne_nil _ _, .inside ?_ rest⟩
      cases declared : node.properties with
      | none => simp [declared] at listed
      | some properties =>
        rw [declared, Option.getD_some] at listed
        exact .member rfl opens declared listed found (dereferenced_follow bounded property)

theorem breaksWithin_array (bounded : ∀ table ∈ references, table.Bounded) {elements : List Value}
    (looked : place ≠ .element) {items : Node} (typed : node.type = some Kind.array.name)
    (given : node.items = some items) :
    BreaksWithin references ⟨place, .arr elements, node⟩ rank v ↔
      Numbered 0 elements (BreaksElement references (Id.run (follow references items)) []) rank v := by
  constructor
  · rintro ⟨nonempty, breaks⟩
    cases breaks with
    | missing isObject => cases isObject
    | mismatch => exact absurd rfl nonempty
    | inside inward rest =>
      cases inward with
      | member isObject => cases isObject
      | element isArray _ _ given' atIndex ends =>
        cases isArray
        obtain rfl := Option.some.inj (given.symm.trans given')
        obtain rfl := (dereferenced_iff bounded).mp ends
        exact ⟨_, _, _, atIndex, by rw [Nat.zero_add], _, rest, by rw [Nat.zero_add]; rfl⟩
  · rintro ⟨i, value, inner, atIndex, rfl, w, rest, rfl⟩
    simp only [Nat.zero_add]
    exact ⟨List.cons_ne_nil _ _,
      .inside (.element rfl looked typed given atIndex (dereferenced_follow bounded items)) rest⟩

/-- Nothing is looked at behind an object whose schema does not open it. -/
theorem not_breaksWithin_closed {members : List (String × Value)}
    (closed : ¬ Focus.Opens ⟨place, .obj members, node⟩) :
    ¬ BreaksWithin references ⟨place, .obj members, node⟩ rank v := by
  rintro ⟨nonempty, breaks⟩
  cases breaks with
  | missing _ opens => exact closed opens
  | mismatch => exact nonempty rfl
  | inside inward =>
    cases inward with
    | member _ opens => exact closed opens
    | element isArray => cases isArray

/-- Nothing is looked at behind an array unless its schema is one of an array with items, nor behind an
array inside another. -/
theorem not_breaksWithin_array {elements : List Value}
    (closed : place = .element ∨ node.type ≠ some Kind.array.name ∨ node.items = none) :
    ¬ BreaksWithin references ⟨place, .arr elements, node⟩ rank v := by
  rintro ⟨nonempty, breaks⟩
  cases breaks with
  | missing isObject => cases isObject
  | mismatch => exact nonempty rfl
  | inside inward =>
    cases inward with
    | member isObject => cases isObject
    | element _ looked typed given => simp_all

/-- Nothing lies behind a value that is neither an object nor an array. -/
theorem not_breaksWithin_scalar {value : Value} (notObject : ∀ members, value ≠ .obj members)
    (notArray : ∀ elements, value ≠ .arr elements) :
    ¬ BreaksWithin references ⟨place, value, node⟩ rank v := by
  rintro ⟨nonempty, breaks⟩
  cases breaks with
  | missing isObject => exact notObject _ isObject
  | mismatch => exact nonempty rfl
  | inside inward =>
    cases inward with
    | member isObject => exact notObject _ isObject
    | element isArray => exact notArray _ isArray

end Shapes

/-- A check of an object for which there is room finds exactly what is wrong in it. -/
def Descends (references : Option (References Id)) (room : Nat) : Prop :=
  ∀ taken members node place, Focus.Opens ⟨place, .obj members, node⟩ →
    taken + (Value.obj members).callDepth ≤ room →
    ∃ found, result? (checkObject (steady references) room taken members node) = some found ∧
      Exact (BreaksWithin references ⟨place, .obj members, node⟩) found

section Parts

variable {references : Option (References Id)} {room taken : Nat}

theorem missing_exact (members : List (String × Value)) (required : List String) (first : Nat) :
    Exact (Numbered first required (Lacks members)) (missing members required) := by
  induction required generalizing first with
  | nil => exact .numbered_nil
  | cons name rest ih =>
    cases found : lookup? name members with
    | none =>
      have here : Exact (Lacks members first name) [⟨[.name name], .missing⟩] :=
        .single [] fun rank v => by simp [Lacks, found]
      simpa [missing, found] using here.numbered_cons (ih (first + 1))
    | some value =>
      have here : Exact (Lacks members first name) [] :=
        .none fun rank v => by simp [Lacks, found]
      simpa [missing, found] using here.numbered_cons (ih (first + 1))

theorem typeBreach_exact {place : Place} {v : Value} {node : Node} {excused : Bool}
    (notRoot : place ≠ .root) (excuse : excused = true ↔ Focus.Excused ⟨place, v, node⟩) :
    Exact (fun rank b => rank = [] ∧ Breaks references ⟨place, v, node⟩ rank b)
      (typeBreach [] v node excused) := by
  unfold typeBreach
  cases declares : node.type with
  | none =>
    refine .none ?_
    rintro _ b ⟨rfl, breaks⟩
    cases breaks with
    | mismatch _ declared => simp_all
  | some declared =>
    by_cases fine : Matches v declared ∨ Focus.Excused ⟨place, v, node⟩
    · have test : (hasType v declared || excused) = true := by
        simpa only [Bool.or_eq_true, hasType_iff, excuse] using fine
      simp only [test, if_true]
      refine .none ?_
      rintro _ b ⟨rfl, breaks⟩
      cases breaks with
      | mismatch _ declared' differs strict =>
        obtain rfl := Option.some.inj (declares.symm.trans declared')
        exact fine.elim differs strict
    · have test : ¬ (hasType v declared || excused) = true := by
        simpa only [Bool.or_eq_true, hasType_iff, excuse] using fine
      obtain ⟨differs, strict⟩ := not_or.mp fine
      simp only [if_neg test]
      refine .single [] fun rank b => ⟨?_, ?_⟩
      · rintro ⟨rfl, breaks⟩
        cases breaks with
        | mismatch _ declared' =>
          obtain rfl := Option.some.inj (declares.symm.trans declared')
          exact ⟨rfl, rfl⟩
      · rintro ⟨rfl, rfl⟩
        exact ⟨rfl, .mismatch notRoot declares differs strict⟩

theorem typeBreach_under (location : Location) (v : Value) (node : Node) (excused : Bool) :
    (typeBreach [] v node excused).map (·.under location) = typeBreach location v node excused := by
  unfold typeBreach
  cases node.type with
  | none => rfl
  | some declared =>
    dsimp only
    split
    · rfl
    · simp [Violation.under]

theorem insideObject_exact (descends : Descends references room) {place : Place} {v : Value}
    (notRoot : place ≠ .root) (location : Location) (node : Node)
    (shallow : taken + v.callDepth ≤ room) :
    ∃ found,
      result? (insideObject (checkObject (steady references) room taken) location v node) =
        some (found.map (·.under location)) ∧
      Exact (fun rank b => v.isObject = true ∧ BreaksWithin references ⟨place, v, node⟩ rank b)
        found := by
  cases v with
  | obj members =>
    by_cases opens : Focus.Opens ⟨place, .obj members, node⟩
    · have test : (node.type = some Kind.object.name && node.properties.isSome) = true := by
        simpa [Focus.Opens, notRoot] using opens
      obtain ⟨found, result, exact⟩ := descends taken members node place opens shallow
      refine ⟨found, ?_, exact.congr fun rank b => by simp [Value.isObject, Value.members?]⟩
      simp only [insideObject, test, if_true, result?_bind, result, Option.bind_some, result?_pure]
    · have test : ¬ (node.type = some Kind.object.name && node.properties.isSome) = true := by
        simpa [Focus.Opens, notRoot] using opens
      refine ⟨[], by simp only [insideObject, if_neg test]; rfl, .none ?_⟩
      exact fun rank b breaks => not_breaksWithin_closed opens breaks.2
  | _ => exact ⟨[], rfl, .none fun rank b breaks => Bool.false_ne_true breaks.1⟩

/-- The type of a value comes before what lies behind it. -/
theorem Exact.behindOwn {f : Focus} {own within : List Violation}
    (atValue : Exact (fun rank b => rank = [] ∧ Breaks references f rank b) own)
    (behind : Exact (BreaksWithin references f) within) :
    Exact (Breaks references f) (own ++ within) := by
  refine (atValue.append behind ?_).congr ?_
  · rintro _ _ rank' _ ⟨rfl, _⟩ ⟨nonempty, _⟩
    obtain ⟨k, inner, rfl⟩ := List.exists_cons_of_ne_nil nonempty
    exact List.nil_lt_cons k inner
  · intro rank b
    by_cases empty : rank = [] <;> simp [BreaksWithin, empty]

theorem checkElement_exact (descends : Descends references room) (location : Location)
    (node : Node) {v : Value} (shallow : taken + v.callDepth ≤ room) :
    ∃ found,
      result? (checkElement (checkObject (steady references) room taken) location node v) =
        some (found.map (·.under location)) ∧
      Exact (Breaks references ⟨.element, v, node⟩) found := by
  obtain ⟨inside, result, exact⟩ :=
    insideObject_exact descends (show Place.element ≠ .root by decide) location node shallow
  have own : Exact (fun rank b => rank = [] ∧ Breaks references ⟨.element, v, node⟩ rank b)
      (typeBreach [] v node false) :=
    typeBreach_exact (by decide) (by simp [Focus.Excused])
  refine ⟨typeBreach [] v node false ++ inside, ?_, own.behindOwn (exact.congr ?_)⟩
  · simp only [checkElement, result?_bind, result, Option.bind_some, result?_pure, List.map_append,
      typeBreach_under]
  · refine fun rank b => ⟨And.right, fun breaks => ⟨?_, breaks⟩⟩
    cases v with
    | obj members => rfl
    | arr elements => exact absurd breaks (not_breaksWithin_array (Or.inl rfl))
    | _ => exact absurd breaks (not_breaksWithin_scalar nofun nofun)

theorem checkElements_exact (descends : Descends references room) (outer : Location) (node : Node)
    (elements : List Value) (index : Nat)
    (shallow : taken + Value.callDepthOfElements elements ≤ room) :
    ∃ found,
      result? (checkElements (checkObject (steady references) room taken) outer node index elements) =
        some (found.map (·.under outer)) ∧
      Exact (Numbered index elements (BreaksElement references node [])) found := by
  induction elements generalizing index with
  | nil => exact ⟨[], rfl, .numbered_nil⟩
  | cons v rest ih =>
    rw [Value.callDepthOfElements] at shallow
    obtain ⟨here, resultHere, exactHere⟩ :=
      checkElement_exact descends (outer ++ [.index index]) node (by omega : taken + v.callDepth ≤ room)
    obtain ⟨behind, resultBehind, exactBehind⟩ := ih (index + 1) (by omega)
    refine ⟨here.map (·.under [.index index]) ++ behind, ?_,
      (exactHere.map (·.under [.index index])).numbered_cons exactBehind⟩
    simp only [checkElements, result?_bind, resultHere, resultBehind, Option.bind_some, result?_pure,
      List.map_append, List.map_map, Function.comp_def, Violation.under_under]

theorem insideArray_exact (bounded : ∀ table ∈ references, table.Bounded)
    (descends : Descends references room) {place : Place} {v : Value} (looked : place ≠ .element)
    (location : Location) (node : Node) (shallow : taken + v.callDepth ≤ room) :
    ∃ found,
      result? (insideArray references (checkObject (steady references) room (taken + 1)) location v node) =
        some (found.map (·.under location)) ∧
      Exact (fun rank b => ¬ v.isObject = true ∧ BreaksWithin references ⟨place, v, node⟩ rank b)
        found := by
  cases v with
  | arr elements =>
    cases given : node.items with
    | none =>
      refine ⟨[], by simp only [insideArray, given]; rfl, .none ?_⟩
      exact fun rank b breaks => not_breaksWithin_array (Or.inr (Or.inr given)) breaks.2
    | some items =>
      by_cases typed : node.type = some Kind.array.name
      · have within : taken + 1 + Value.callDepthOfElements elements ≤ room := by
          simp only [Value.callDepth] at shallow
          omega
        obtain ⟨found, result, exact⟩ := checkElements_exact descends location
          (Id.run (follow references items)) elements 0 within
        refine ⟨found, ?_, exact.congr fun rank b => ?_⟩
        · simp only [insideArray, given, typed, if_true, result?_bind, result?_lift, Option.bind_some,
            result]
        · simp [Value.isObject, Value.members?, breaksWithin_array bounded looked typed given]
      · refine ⟨[], by simp only [insideArray, given, if_neg typed]; rfl, .none ?_⟩
        exact fun rank b breaks => not_breaksWithin_array (Or.inr (Or.inl typed)) breaks.2
  | obj members =>
    refine ⟨[], ?_, .none fun rank b breaks => breaks.1 rfl⟩
    simp only [insideArray]
    rfl
  | _ =>
    refine ⟨[], ?_, .none ?_⟩
    · simp only [insideArray]
      rfl
    · rintro rank b ⟨_, breaks⟩
      exact absurd breaks (not_breaksWithin_scalar (by rintro _ ⟨⟩) (by rintro _ ⟨⟩))

theorem checkMember_exact (bounded : ∀ table ∈ references, table.Bounded)
    (descends : Descends references room) (name : String) (node : Node) {v : Value}
    (shallow : 1 + v.callDepth ≤ room) :
    ∃ found,
      result? (checkMember (steady references) (checkObject (steady references) room) name node v) =
        some (found.map (·.under [.name name])) ∧
      Exact (Breaks references ⟨.member, v, node⟩) found := by
  obtain ⟨objects, resultObjects, exactObjects⟩ :=
    insideObject_exact descends (show Place.member ≠ .root by decide) [.name name] node shallow
  obtain ⟨elements, resultElements, exactElements⟩ :=
    insideArray_exact bounded descends (show Place.member ≠ .element by decide) [.name name] node
      shallow
  have own : Exact (fun rank b => rank = [] ∧ Breaks references ⟨.member, v, node⟩ rank b)
      (typeBreach [] v node (v.isNull && node.nullable)) :=
    typeBreach_exact (by decide) (by simp [Focus.Excused])
  have within : Exact (BreaksWithin references ⟨.member, v, node⟩) (objects ++ elements) := by
    refine (exactObjects.append exactElements ?_).congr fun rank b => ?_
    · exact fun _ _ _ _ isObject notObject => absurd isObject.1 notObject.1
    · by_cases isObject : v.isObject = true <;> simp [isObject]
  refine ⟨typeBreach [] v node (v.isNull && node.nullable) ++ (objects ++ elements), ?_,
    own.behindOwn within⟩
  simp only [checkMember, result?_bind, resultObjects, resultElements, Option.bind_some, result?_pure,
    List.map_append, typeBreach_under, List.append_assoc]

theorem checkMembers_exact (bounded : ∀ table ∈ references, table.Bounded)
    (descends : Descends references room) {members : List (String × Value)}
    (shallow : Value.callDepthOfMembers members ≤ room) (properties : List (String × Node))
    (first : Nat) :
    ∃ found,
      result? (checkMembers (steady references) (checkObject (steady references) room) members
        properties) = some found ∧
      Exact (Numbered first properties (BreaksMember references members)) found := by
  induction properties generalizing first with
  | nil => exact ⟨[], rfl, .numbered_nil⟩
  | cons property rest ih =>
    obtain ⟨name, node⟩ := property
    obtain ⟨others, resultOthers, exactOthers⟩ := ih (first + 1)
    cases found : lookup? name members with
    | none =>
      have here : Exact (BreaksMember references members first (name, node)) [] :=
        .none fun rank b breaks => by simp [BreaksMember, found] at breaks
      refine ⟨others, ?_, here.numbered_cons exactOthers⟩
      simp only [checkMembers, found, resultOthers]
    | some v =>
      obtain ⟨inside, result, exact⟩ := checkMember_exact bounded descends name
        (Id.run (follow references node)) (Nat.le_trans (Value.callDepth_lt_members found) shallow)
      have here : Exact (BreaksMember references members first (name, node))
          (inside.map (·.under [.name name])) := by
        refine (exact.map _).congr fun rank b => ?_
        simp [BreaksMember, found]
      refine ⟨_, ?_, here.numbered_cons exactOthers⟩
      simp only [checkMembers, found, result?_bind, result?_lift, Option.bind_some, result,
        resultOthers, result?_pure]

end Parts

/-- The induction is on the room: a schema may refer to itself, so nothing gets smaller on its side. -/
theorem descends {references : Option (References Id)}
    (bounded : ∀ table ∈ references, table.Bounded) (room : Nat) : Descends references room := by
  induction room with
  | zero =>
    intro taken members node place opens shallow
    simp only [Value.callDepth] at shallow
    omega
  | succ room ih =>
    intro taken members node place opens shallow
    cases taken with
    | succ taken => exact ih taken members node place opens (by omega)
    | zero =>
      have within : Value.callDepthOfMembers members ≤ room := by
        simp only [Value.callDepth] at shallow
        omega
      obtain ⟨inside, result, exact⟩ :=
        checkMembers_exact bounded ih within (node.properties.getD []) node.required.length
      refine ⟨missing members node.required ++ inside, ?_,
        ((missing_exact members node.required 0).append exact ?_).congr fun rank b =>
          (breaksWithin_object bounded opens).symm⟩
      · simp only [checkObject, result?_bind, result, Option.bind_some, result?_pure]
      · exact fun _ _ _ _ asked asked' => asked.lt (by omega) asked'

/-- No type is asked for at the root itself. -/
theorem not_breaks_root {references : Option (References Id)} {v : Value} {node : Node}
    {b : Violation} : ¬ Breaks references ⟨.root, v, node⟩ [] b := by
  rintro ⟨⟩
  contradiction

/-- What is found in a value is exactly what is wrong behind it, seen from the root. -/
theorem violations_exact {references : Option (References Id)}
    (bounded : ∀ table ∈ references, table.Bounded) {v : Value} {node root : Node}
    (governed : Dereferenced references node root) {room : Nat} (shallow : v.callDepth ≤ room) :
    ∃ found, result? (violations (steady references) room v node) = some found ∧
      Exact (fun rank b => Faulty references ⟨.root, v, root⟩ rank b.location b.breach) found := by
  obtain rfl := (dereferenced_iff bounded).mp governed
  -- No type is asked for at the root: what is wrong in a payload lies behind its root.
  suffices within : ∃ found, result? (violations (steady references) room v node) = some found ∧
      Exact (BreaksWithin references ⟨.root, v, Id.run (follow references node)⟩) found by
    obtain ⟨found, result, exact⟩ := within
    refine ⟨found, result, exact.congr fun rank b => ⟨fun breaks => breaks.2.faulty, fun faulty => ?_⟩⟩
    refine ⟨?_, faulty.breaks⟩
    rintro rfl
    exact absurd faulty.breaks not_breaks_root
  have start : 0 + v.callDepth ≤ room := by omega
  cases v with
  | obj members =>
    obtain ⟨found, result, exact⟩ := descends bounded room 0 members
      (Id.run (follow references node)) .root (Or.inl rfl) start
    exact ⟨found, by simp only [violations, result?_bind, result?_lift, Option.bind_some, result], exact⟩
  | _ =>
    obtain ⟨found, result, exact⟩ := insideArray_exact bounded (descends bounded room)
      (show Place.root ≠ .element by decide) [] (Id.run (follow references node)) start
    rw [Violation.map_under_nil] at result
    refine ⟨found, ?_, exact.congr fun rank b => by simp [Value.isObject, Value.members?]⟩
    simp only [violations, result?_bind, result?_lift, Option.bind_some]
    exact result

end PayloadCheck.Schema
