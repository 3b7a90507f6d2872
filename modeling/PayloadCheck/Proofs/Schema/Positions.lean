import PayloadCheck.Proofs.Schema.Exactness
import PayloadCheck.Proofs.Schema.RoundTrip
import PayloadCheck.Room

namespace PayloadCheck.Schema

open Json

/-- What two checks find alike, seen from two locations. -/
def Alike (here there : Location) (x y : Finding Id) : Prop :=
  ∃ found : List Violation,
    result? x = some (found.map (·.under here)) ∧ result? y = some (found.map (·.under there))

namespace Alike

variable {here there : Location}

theorem none : Alike here there (return []) (return []) := ⟨[], rfl, rfl⟩

theorem lifted {α : Type} (x : Id α) {f g : α → Finding Id}
    (alike : Alike here there (f (Id.run x)) (g (Id.run x))) :
    Alike here there (OptionT.lift x >>= f) (OptionT.lift x >>= g) := by
  obtain ⟨found, left, right⟩ := alike
  exact ⟨found, by simpa only [result?_bind, result?_lift, Option.bind_some] using left,
    by simpa only [result?_bind, result?_lift, Option.bind_some] using right⟩

theorem append {x y z w : Finding Id} (first : Alike here there x y) (next : Alike here there z w) :
    Alike here there (do let a ← x; let b ← z; return a ++ b)
      (do let a ← y; let b ← w; return a ++ b) := by
  obtain ⟨found, left, right⟩ := first
  obtain ⟨others, leftNext, rightNext⟩ := next
  refine ⟨found ++ others, ?_, ?_⟩
  · simp only [result?_bind, left, leftNext, Option.bind_some, result?_pure, List.map_append]
  · simp only [result?_bind, right, rightNext, Option.bind_some, result?_pure, List.map_append]

/-- What is wrong with a value itself comes before what is found behind it. -/
theorem behind {x y : Finding Id} (alike : Alike here there x y) (own : List Violation) :
    Alike here there (do let a ← x; return own.map (·.under here) ++ a)
      (do let a ← y; return own.map (·.under there) ++ a) := by
  obtain ⟨found, left, right⟩ := alike
  refine ⟨own ++ found, ?_, ?_⟩
  · simp only [result?_bind, left, Option.bind_some, result?_pure, List.map_append]
  · simp only [result?_bind, right, Option.bind_some, result?_pure, List.map_append]

theorem under {x y : Finding Id} (alike : Alike [] [] x y) (here there : Location) :
    Alike here there (do return (← x).map (·.under here)) (do return (← y).map (·.under there)) := by
  obtain ⟨found, left, right⟩ := alike
  rw [Violation.map_under_nil] at left right
  refine ⟨found, ?_, ?_⟩
  · simp only [result?_bind, left, Option.bind_some, result?_pure]
  · simp only [result?_bind, right, Option.bind_some, result?_pure]

/-- The same seen from further out. -/
theorem outward {inner : Location} {x y : Finding Id} {hereOuter thereOuter : Location}
    (alike : Alike (hereOuter ++ inner) (thereOuter ++ inner) x y) : Alike hereOuter thereOuter x y := by
  obtain ⟨found, left, right⟩ := alike
  exact ⟨found.map (·.under inner), by simp [left, Violation.under_under],
    by simp [right, Violation.under_under]⟩

end Alike

/-- Two ways to check an object find the same. -/
def AlikeAt (descend descend' : Descent Id) (v : Value) : Prop :=
  ∀ members node, v = .obj members → Alike [] [] (descend members node) (descend' members node)

section

variable {references : Option (References Id)} {descend descend' : Descent Id} (here there : Location)

theorem insideObject_alike {v : Value} (alike : AlikeAt descend descend' v) (node : Node) :
    Alike here there (insideObject descend here v node) (insideObject descend' there v node) := by
  cases v with
  | obj members =>
    unfold insideObject
    dsimp only
    split
    · exact (alike members node rfl).under here there
    · exact .none
  | _ => exact .none

theorem checkElement_alike {v : Value} (alike : AlikeAt descend descend' v) (node : Node) :
    Alike here there (checkElement descend here node v) (checkElement descend' there node v) := by
  have behind := (insideObject_alike here there alike node).behind (typeBreach [] v node false)
  rwa [typeBreach_under, typeBreach_under] at behind

theorem checkElements_alike {elements : List Value} (alike : ∀ v ∈ elements, AlikeAt descend descend' v)
    (node : Node) (index : Nat) :
    Alike here there (checkElements descend here node index elements)
      (checkElements descend' there node index elements) := by
  induction elements generalizing index with
  | nil => exact .none
  | cons v rest ih =>
    obtain ⟨first, others⟩ := List.forall_mem_cons.mp alike
    exact (checkElement_alike _ _ first node).outward.append (ih others (index + 1))

theorem insideArray_alike {v : Value} (alike : ∀ w ∈ v.children, AlikeAt descend descend' w)
    (node : Node) :
    Alike here there (insideArray references descend here v node)
      (insideArray references descend' there v node) := by
  unfold insideArray
  split
  · split
    · exact .lifted _ (checkElements_alike here there alike _ 0)
    · exact .none
  · exact .none

end

section

variable {references : Option (References Id)} {descend descend' : Nat → Descent Id}

theorem checkMember_alike {v : Value} (object : AlikeAt (descend 1) (descend' 1) v)
    (elements : ∀ w ∈ v.children, AlikeAt (descend 2) (descend' 2) w) (name : String) (node : Node) :
    Alike [] [] (checkMember (steady references) descend name node v)
      (checkMember (steady references) descend' name node v) := by
  have inside := insideObject_alike [.name name] [.name name] object node
  have behind : Alike [.name name] [.name name] (insideArray references (descend 2) _ v node) _ :=
    insideArray_alike _ _ elements node
  have both := (inside.append behind).behind (typeBreach [] v node (v.isNull && node.nullable))
  rw [typeBreach_under] at both
  refine @Alike.outward [.name name] _ _ [] [] ?_
  simpa [checkMember] using both

theorem checkMembers_alike {members : List (String × Value)}
    (alike : ∀ name v, lookup? name members = some v →
      AlikeAt (descend 1) (descend' 1) v ∧ ∀ w ∈ v.children, AlikeAt (descend 2) (descend' 2) w)
    (properties : List (String × Node)) :
    Alike [] [] (checkMembers (steady references) descend members properties)
      (checkMembers (steady references) descend' members properties) := by
  induction properties with
  | nil => exact .none
  | cons property rest ih =>
    obtain ⟨name, node⟩ := property
    unfold checkMembers
    cases found : lookup? name members with
    | none => exact ih
    | some v =>
      obtain ⟨object, elements⟩ := alike name v found
      exact .lifted _ ((checkMember_alike object elements name _).append ih)

end

/-- How much room there is makes no difference where it is enough. -/
theorem checkObject_alike {references : Option (References Id)} {room room' taken : Nat} {v : Value}
    (enough : taken + v.callDepth ≤ room) (enough' : taken + v.callDepth ≤ room') :
    AlikeAt (checkObject (steady references) room taken) (checkObject (steady references) room' taken) v := by
  induction room generalizing room' taken v with
  | zero =>
    rintro members node rfl
    simp only [Value.callDepth] at enough
    omega
  | succ room ih =>
    rintro members node rfl
    obtain ⟨r, rfl⟩ := Nat.exists_eq_add_one.mpr
      (by simp only [Value.callDepth] at enough'; omega : 0 < room')
    cases taken with
    | succ taken => exact ih (by omega) (by omega) members node rfl
    | zero =>
      simp only [Value.callDepth] at enough enough'
      have inside : Alike [] []
          (checkMembers (steady references) (checkObject (steady references) room) members
            (node.properties.getD []))
          (checkMembers (steady references) (checkObject (steady references) r) members
            (node.properties.getD [])) := by
        refine checkMembers_alike (fun name v found => ⟨?_, fun w within => ?_⟩) _
        · have deep := Value.callDepth_lt_members found
          exact ih (by omega) (by omega)
        · have deep := Value.callDepth_lt_members found
          have deeper := Value.callDepth_lt_children within
          exact ih (by omega) (by omega)
      have both := inside.behind (missing members node.required)
      rw [Violation.map_under_nil] at both
      exact both

section

variable (references : Option (References Id)) (room : Nat) (name : String) (v schema : Value)

/-- What is reported on a value as the only member of an object. -/
def memberErrors : List SchemaError :=
  Id.run (checkRaw (steady references) room (.obj [(name, v)])
    (.obj [("properties", .obj [(name, schema)])]))

/-- What is reported on a value as the only element of an array. -/
def elementErrors : List SchemaError :=
  Id.run (checkRaw (steady references) room (.arr [v]) (.obj [("type", .str "array"), ("items", schema)]))

/-- The schema that a value says, at the end of its references. -/
def governing : Node := Id.run (follow references ((Node.ofValue? schema).getD .empty))

end

theorem follow_of_no_ref {references : Option (References Id)} {node : Node} (last : node.ref = none) :
    Id.run (follow references node) = node := by
  cases references with
  | none => rfl
  | some table =>
    unfold follow followFrom
    rw [last]
    rfl

section

variable {references : Option (References Id)} {room : Nat} {name : String} {v schema : Value}

theorem checkObject_single (property : Node) :
    result? (checkObject (steady references) (room + 1) 0 [(name, v)]
        { Node.empty with properties := some [(name, property)] }) =
      result? (checkMember (steady references) (checkObject (steady references) room) name
        (Id.run (follow references property)) v) := by
  have alone : lookup? name [(name, v)] = some v := by simp [lookup?]
  simp only [checkObject, missing, Node.empty, Option.getD_some, checkMembers, alone, result?_bind,
    result?_lift, result?_pure, Option.bind_some, List.filter_nil, List.map_nil, List.nil_append]
  cases result? (checkMember (steady references) (checkObject (steady references) room) name
    (Id.run (follow references property)) v) <;> simp

theorem calls_properties_single (name : String) (schema : Value) :
    Node.calls (.obj [("properties", .obj [(name, schema)])]) = 2 + Node.calls schema := by
  simp only [Node.calls, Node.callsOfMembers, Node.callsOfEntries, Node.callsOfList, Nat.zero_max,
    if_true, show ("properties" : String) ≠ "items" by decide, if_false]
  omega

theorem memberErrors_eq (readable : 2 + Node.calls schema ≤ room + 1) :
    memberErrors references (room + 1) name v schema =
      reports (result? (checkMember (steady references) (checkObject (steady references) room) name
        (governing references schema) v)) := by
  have calls := calls_properties_single name schema
  have read : Node.read? (room + 1) (.obj [("properties", .obj [(name, schema)])]) =
      some (some { Node.empty with
        properties := some [(name, (Node.ofValue? schema).getD .empty)] }) := by
    rw [Node.read?, if_neg (by omega)]
    rfl
  have found : result? (violations (steady references) (room + 1) (.obj [(name, v)]) { Node.empty with
        properties := some [(name, (Node.ofValue? schema).getD .empty)] }) =
      result? (checkMember (steady references) (checkObject (steady references) room) name
        (governing references schema) v) := by
    rw [violations, result?_bind, result?_lift, Option.bind_some, follow_of_no_ref rfl]
    exact checkObject_single _
  rw [memberErrors, checkRaw, read]
  exact congrArg reports found

theorem elementErrors_eq (readable : 1 + Node.calls schema ≤ room) :
    elementErrors references room v schema =
      reports (result? (checkElement (checkObject (steady references) room 1) [.index 0]
        (governing references schema) v)) := by
  have calls : Node.calls (.obj [("type", .str "array"), ("items", schema)]) = 1 + Node.calls schema := by
    simp [Node.calls, Node.callsOfMembers]
  have read : Node.read? room (.obj [("type", .str "array"), ("items", schema)]) =
      some (some { Node.empty with type := some "array", items := Node.ofValue? schema }) := by
    rw [Node.read?, if_neg (by omega)]
    rfl
  have found : result? (violations (steady references) room (.arr [v])
        { Node.empty with type := some "array", items := Node.ofValue? schema }) =
      result? (checkElement (checkObject (steady references) room 1) [.index 0]
        (governing references schema) v) := by
    rw [violations, result?_bind, result?_lift, Option.bind_some, follow_of_no_ref rfl]
    unfold governing
    cases described : Node.ofValue? schema with
    | none =>
      rw [Option.getD_none, follow_of_no_ref rfl]
      cases v <;> rfl
    | some items =>
      rw [Option.getD_some]
      simp only [insideArray, show some "array" = some Kind.array.name from rfl, if_true, checkElements,
        result?_bind, result?_lift, result?_pure, Option.bind_some, List.nil_append, List.append_nil]
      exact Option.bind_fun_some _
  rw [elementErrors, checkRaw, read]
  exact congrArg reports found

/-- An array alone is looked into by the schema at the end of the references. -/
theorem checkRaw_arr (readable : Node.calls schema ≤ room) {elements : List Value}
    {nested : List Violation}
    (alone : result? (insideArray references (checkObject (steady references) room 1) [] (.arr elements)
      (governing references schema)) = some nested) :
    Id.run (checkRaw (steady references) room (.arr elements) schema) =
      nested.map Violation.report := by
  rw [checkRaw, Node.read?, if_neg (by omega)]
  cases described : Node.ofValue? schema with
  | none =>
    have last : governing references schema = .empty := by
      rw [governing, described]
      exact follow_of_no_ref rfl
    rw [last] at alone
    exact congrArg (List.map Violation.report) (Option.some.inj alone)
  | some node =>
    have found : result? (violations (steady references) room (.arr elements) node) = some nested := by
      rw [violations, result?_bind, result?_lift, Option.bind_some, ← alone, governing, described]
      rfl
    exact congrArg reports found

/-- What is reported on a value in either place: what is wrong with its type, where a member may be
excused, then what is wrong behind it as an object; and in a member, what is wrong behind it as an
array. -/
theorem positions_errors (readable : 2 + Node.calls schema ≤ room) (shallow : 2 + v.callDepth ≤ room) :
    ∃ objects nested : List Violation,
      memberErrors references room name v schema =
        ((typeBreach [] v (governing references schema)
          (v.isNull && (governing references schema).nullable) ++ objects ++ nested).map
            (·.under [.name name])).map Violation.report ∧
      elementErrors references room v schema =
        ((typeBreach [] v (governing references schema) false ++ objects).map
          (·.under [.index 0])).map Violation.report ∧
      (v = .null → objects = []) ∧
      ((∀ elements, v ≠ .arr elements) → nested = []) ∧
      ∀ elements, v = .arr elements →
        Id.run (checkRaw (steady references) room v schema) = nested.map Violation.report := by
  obtain ⟨r, rfl⟩ := Nat.exists_eq_add_one.mpr (by omega : 0 < room)
  have object : AlikeAt (checkObject (steady references) r 1) (checkObject (steady references) (r + 1) 1)
      v := checkObject_alike (by omega) (by omega)
  -- One call more is open around the elements of an array in a member than around those of an array alone.
  have within : ∀ w ∈ v.children, AlikeAt (checkObject (steady references) r 2)
      (checkObject (steady references) (r + 1 + 1) 2) w := fun w inside => by
    have deeper := Value.callDepth_lt_children inside
    exact checkObject_alike (by omega) (by omega)
  obtain ⟨objects, asMember, asElement⟩ :=
    insideObject_alike [.name name] [.index 0] object (governing references schema)
  obtain ⟨nested, inMember, alone⟩ : Alike [.name name] []
      (insideArray references _ _ v (governing references schema)) _ :=
    insideArray_alike _ _ within (governing references schema)
  refine ⟨objects, nested, ?_, ?_, ?_, ?_, ?_⟩
  · rw [memberErrors_eq readable]
    simp only [checkMember, result?_bind, asMember, inMember, Option.bind_some, result?_pure, reports,
      List.map_append, typeBreach_under]
  · rw [elementErrors_eq (by omega)]
    simp only [checkElement, result?_bind, asElement, Option.bind_some, result?_pure, reports,
      List.map_append, typeBreach_under]
  · rintro rfl
    exact List.map_eq_nil_iff.mp (Option.some.inj asMember).symm
  · intro other
    cases v with
    | arr elements => exact absurd rfl (other elements)
    | _ => exact List.map_eq_nil_iff.mp (Option.some.inj inMember).symm
  · rintro elements rfl
    rw [Violation.map_under_nil] at alone
    exact checkRaw_arr (by omega) alone

/-- A null that its schema allows, though the schema declares another type than null. -/
def IsExcusedNull (v : Value) (node : Node) : Prop :=
  v = .null ∧ node.nullable = true ∧ ∃ declared, node.type = some declared ∧ declared ≠ Kind.null.name

theorem typeBreach_excused {v : Value} {node : Node} (excused : IsExcusedNull v node) :
    typeBreach [] v node (v.isNull && node.nullable) = [] ∧ typeBreach [] v node false ≠ [] := by
  obtain ⟨rfl, allowed, declared, declares, other⟩ := excused
  have mistyped : hasType .null declared = false := by
    simpa [hasType, kindOf] using Ne.symm other
  simp [typeBreach, declares, allowed, Value.isNull, mistyped]

theorem typeBreach_strict {v : Value} {node : Node} (strict : ¬ IsExcusedNull v node) :
    typeBreach [] v node (v.isNull && node.nullable) = typeBreach [] v node false := by
  unfold typeBreach
  cases declares : node.type with
  | none => rfl
  | some declared =>
    cases v with
    | null =>
      by_cases own : declared = Kind.null.name
      · simp [own, hasType, kindOf]
      · have refused : node.nullable = false := by
          simpa using fun allowed => strict ⟨rfl, allowed, declared, declares, own⟩
        simp [refused]
    | _ => rfl

/-- A value gives rise to the same locations as a member and as an element, the step to it aside, unless it
is a null that is excused in a member alone, or an array in which something is wrong: only as a member is
it looked into. -/
theorem positions_agree_iff (readable : 2 + Node.calls schema ≤ room) (shallow : 2 + v.callDepth ≤ room) :
    ∃ inMember inElement : List Violation,
      memberErrors references room name v schema =
        (inMember.map (·.under [.name name])).map Violation.report ∧
      elementErrors references room v schema =
        (inElement.map (·.under [.index 0])).map Violation.report ∧
      (inMember.map (·.location) = inElement.map (·.location) ↔
        ¬ IsExcusedNull v (governing references schema) ∧
          ∀ elements, v = .arr elements → Id.run (checkRaw (steady references) room v schema) = []) := by
  obtain ⟨objects, nested, member, element, ofNull, ofOther, ofArray⟩ :=
    @positions_errors references room name v schema readable shallow
  have behind : nested = [] ↔
      ∀ elements, v = .arr elements → Id.run (checkRaw (steady references) room v schema) = [] := by
    constructor
    · intro none elements isArray
      rw [ofArray elements isArray, none, List.map_nil]
    · intro clean
      by_cases isArray : ∃ elements, v = .arr elements
      · obtain ⟨elements, same⟩ := isArray
        have reported := (ofArray elements same).symm.trans (clean elements same)
        exact List.map_eq_nil_iff.mp reported
      · exact ofOther fun elements same => isArray ⟨elements, same⟩
  refine ⟨_, _, member, element, ?_⟩
  rw [← behind]
  by_cases excused : IsExcusedNull v (governing references schema)
  · obtain ⟨allowed, reported⟩ := typeBreach_excused excused
    have noObjects := ofNull excused.1
    have noNested := ofOther fun elements isArray => nomatch excused.1.symm.trans isArray
    rw [allowed, noObjects, noNested]
    refine iff_of_false (fun same => reported ?_) fun strict => strict.1 excused
    simpa using same
  · rw [typeBreach_strict excused]
    simp [excused]

end

/-- The schema of a text that may be null. -/
def nullableText : Value := .obj [("type", .str "string"), ("nullable", .bool true)]

/-- The schema of a list of texts. -/
def textList : Value := .obj [("type", .str "array"), ("items", .obj [("type", .str "string")])]

theorem positions_agree_iff_nullableText :
    ∃ inMember inElement : List Violation,
      memberErrors none standardRoom "k" .null nullableText =
        (inMember.map (·.under [.name "k"])).map Violation.report ∧
      elementErrors none standardRoom .null nullableText =
        (inElement.map (·.under [.index 0])).map Violation.report ∧
      inMember.map (·.location) ≠ inElement.map (·.location) := by
  obtain ⟨inMember, inElement, member, element, iff⟩ :=
    @positions_agree_iff none standardRoom "k" .null nullableText (by decide) (by decide)
  refine ⟨inMember, inElement, member, element, fun same => (iff.mp same).1 ?_⟩
  exact ⟨rfl, rfl, "string", rfl, by decide⟩

/-- An element that is an allowed null is reported, and an array among the elements is not looked into, while
members are excused and looked into. -/
theorem positions_disagree :
    (memberErrors none standardRoom "k" .null nullableText = [] ∧
      elementErrors none standardRoom .null nullableText =
        [⟨"[0]", "Array element \"[0]\" must be of type string, got null"⟩]) ∧
    memberErrors none standardRoom "k" (.arr [.int 1]) textList =
      [⟨"k[0]", "Array element \"k[0]\" must be of type string, got integer"⟩] ∧
    elementErrors none standardRoom (.arr [.int 1]) textList = [] := by
  decide

end PayloadCheck.Schema
