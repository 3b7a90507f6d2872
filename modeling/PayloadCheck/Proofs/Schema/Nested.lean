import PayloadCheck.Proofs.Schema.Report
import PayloadCheck.Proofs.Schema.Resemblance

namespace PayloadCheck.Schema

open Json

/-- The error, reported on a value further out. -/
def SchemaError.within (outer : String) (error : SchemaError) : SchemaError :=
  { error with path := outer ++ error.path }

/-- A violation lies at or behind a location, and if something is missing, it is a member. -/
def Violation.At (location : Location) (b : Violation) : Prop :=
  (∃ rest, b.location = location ++ rest) ∧
    (b.breach = .missing → ∃ outer s, b.location = outer ++ [.name s])

/-- A run that stops inside a list stops there in every longer one. -/
theorem span_append {α : Type} {p : α → Bool} {xs : List α} {stop : α} (inside : stop ∈ xs)
    (stops : p stop = false) (ys : List α) :
    ∃ run last rest, xs.span p = (run, last :: rest) ∧ (xs ++ ys).span p = (run, last :: (rest ++ ys)) := by
  induction xs with
  | nil => exact nomatch inside
  | cons x xs ih =>
    simp only [List.span_eq_takeWhile_dropWhile] at ih ⊢
    by_cases runs : p x = true
    · have later : stop ∈ xs := by
        rcases List.mem_cons.mp inside with rfl | later
        · exact nomatch stops.symm.trans runs
        · exact later
      obtain ⟨run, last, rest, alone, longer⟩ := ih later
      obtain ⟨taken, dropped⟩ := Prod.mk.inj alone
      obtain ⟨taken', dropped'⟩ := Prod.mk.inj longer
      refine ⟨x :: run, last, rest, ?_, ?_⟩
      · rw [List.takeWhile_cons_of_pos runs, List.dropWhile_cons_of_pos runs, taken, dropped]
      · rw [List.cons_append, List.takeWhile_cons_of_pos runs, List.dropWhile_cons_of_pos runs, taken',
          dropped']
    · refine ⟨[], x, xs, ?_, ?_⟩
      · rw [List.takeWhile_cons_of_neg runs, List.dropWhile_cons_of_neg runs]
      · rw [List.cons_append, List.takeWhile_cons_of_neg runs, List.dropWhile_cons_of_neg runs]

namespace Location

theorem tail_of_span {location indices outer : Location} {last : Step}
    (parts : location.reverse.span (fun step => step matches .index _) = (indices, last :: outer)) :
    tail location = last :: indices.reverse :=
  congrArg (fun parts : Location × Location =>
    match parts with
    | (indices, last :: _) => last :: indices.reverse
    | (indices, []) => indices.reverse) parts

/-- The steps in front of a name do not belong to the last name and the indices behind it. -/
theorem tail_append {location : Location} {s : String} (named : Step.name s ∈ location)
    (outer : Location) : tail (outer ++ location) = tail location := by
  have stop : Step.name s ∈ location.reverse := List.mem_reverse.mpr named
  obtain ⟨indices, last, rest, alone, longer⟩ :=
    span_append (p := fun step => step matches .index _) stop rfl outer.reverse
  rw [tail_of_span alone]
  exact tail_of_span (List.reverse_append ▸ longer)

end Location

theorem Violation.report_under_name {b : Violation} {s : String} (member : b.At [.name s])
    (name : String) : (b.under [.name name]).report = b.report.within (name ++ ".") := by
  obtain ⟨location, breach⟩ := b
  obtain ⟨⟨rest, rfl⟩, closing⟩ := member
  have path : Location.text (.name name :: .name s :: rest) =
      name ++ "." ++ Location.text (.name s :: rest) := by
    simp [Location.text, Location.stepText, String.append_assoc]
  have tail : Location.tail (.name name :: .name s :: rest) = Location.tail (.name s :: rest) :=
    Location.tail_append List.mem_cons_self [.name name]
  have last : (Step.name name :: .name s :: rest).getLast? = (Step.name s :: rest).getLast? :=
    List.getLast?_cons_cons
  have message : Violation.message ⟨.name name :: .name s :: rest, breach⟩ =
      Violation.message ⟨.name s :: rest, breach⟩ := by
    cases breach with
    | missing =>
      obtain ⟨outer, missed, ends⟩ := closing rfl
      have named : (Step.name s :: rest).getLast? = some (.name missed) := by
        rw [show Step.name s :: rest = outer ++ [.name missed] from ends, List.getLast?_concat]
      simp only [Violation.message, last, named]
    | mismatch declared found =>
      simp only [Violation.message, last, tail]
      rcases (Step.name s :: rest).getLast? with _ | _ | _ <;> rfl
  exact congrArg₂ SchemaError.mk path message

/-- No violation is reported as a payload that is nested too deep is. -/
theorem Violation.report_ne_tooDeep (b : Violation) : b.report ≠ tooDeep := by
  intro same
  have starts := congrArg (fun error => error.message.toList.head?) same
  obtain ⟨location, breach⟩ := b
  simp only [Violation.report, Violation.message, tooDeep] at starts
  split at starts <;> simp [String.toList_append] at starts

/-- All that a check finds has a property. -/
def AllFound (p : Violation → Prop) (x : Finding Id) : Prop :=
  ∀ found, result? x = some found → ∀ b ∈ found, p b

namespace AllFound

variable {p : Violation → Prop}

theorem pure {found : List Violation} (all : ∀ b ∈ found, p b) : AllFound p (return found) := by
  intro other same
  obtain rfl := Option.some.inj same
  exact all

theorem bind {α : Type} {x : OptionT Id α} {f : α → Finding Id}
    (next : ∀ a, result? x = some a → AllFound p (f a)) : AllFound p (x >>= f) := by
  intro found reached
  rw [result?_bind] at reached
  obtain ⟨a, first, rest⟩ := Option.bind_eq_some_iff.mp reached
  exact next a first found rest

theorem append {x y : Finding Id} (first : AllFound p x) (next : AllFound p y) :
    AllFound p (do let a ← x; let b ← y; return a ++ b) :=
  .bind fun a here => .bind fun b behind => .pure fun v among =>
    (List.mem_append.mp among).elim (first a here v) (next b behind v)

theorem behind {x : Finding Id} {own : List Violation} (itself : ∀ b ∈ own, p b) (inside : AllFound p x) :
    AllFound p (do let a ← x; return own ++ a) :=
  .bind fun a found => .pure fun v among =>
    (List.mem_append.mp among).elim (itself v) (inside a found v)

theorem imp {q : Violation → Prop} {x : Finding Id} (all : AllFound p x) (each : ∀ b, p b → q b) :
    AllFound q x :=
  fun found reached b among => each b (all found reached b among)

end AllFound

namespace Violation

theorem at_of_mismatch {location : Location} {breach : Breach} (present : breach ≠ .missing) :
    At location ⟨location, breach⟩ :=
  ⟨⟨[], (List.append_nil location).symm⟩, fun missing => absurd missing present⟩

theorem At.outward {outer inner : Location} {b : Violation} (behind : b.At (outer ++ inner)) :
    b.At outer := by
  obtain ⟨⟨rest, place⟩, closing⟩ := behind
  exact ⟨⟨inner ++ rest, by rw [place, List.append_assoc]⟩, closing⟩

theorem At.under {inner : Location} {b : Violation} (behind : b.At inner) (outer : Location) :
    (b.under outer).At outer := by
  refine ⟨⟨b.location, rfl⟩, fun missing => ?_⟩
  obtain ⟨front, s, ends⟩ := behind.2 missing
  exact ⟨outer ++ front, s, by rw [Violation.under, ends, List.append_assoc]⟩

/-- A violation lies at or behind a member. -/
def InMember (b : Violation) : Prop := ∃ s, b.At [.name s]

end Violation

theorem typeBreach_at (location : Location) (v : Value) (node : Node) (excused : Bool) :
    ∀ b ∈ typeBreach location v node excused, b.At location := by
  intro b among
  unfold typeBreach at among
  cases declares : node.type with
  | none => simp [declares] at among
  | some declared =>
    simp only [declares] at among
    split at among
    · exact nomatch among
    · obtain rfl := List.mem_singleton.mp among
      exact Violation.at_of_mismatch nofun

section

variable {descend : Descent Id} (inner : ∀ members node, AllFound Violation.InMember (descend members node))
include inner

theorem insideObject_at (location : Location) (v : Value) (node : Node) :
    AllFound (Violation.At location) (insideObject descend location v node) := by
  cases v with
  | obj members =>
    unfold insideObject
    dsimp only
    split
    · refine .bind fun found reached => .pure fun b among => ?_
      obtain ⟨w, held, rfl⟩ := List.mem_map.mp among
      obtain ⟨s, behind⟩ := inner members node found reached w held
      exact behind.under location
    · exact .pure nofun
  | _ => exact .pure nofun

theorem checkElement_at (location : Location) (node : Node) (v : Value) :
    AllFound (Violation.At location) (checkElement descend location node v) :=
  .behind (typeBreach_at location v node false) (insideObject_at inner location v node)

theorem checkElements_at (outer : Location) (node : Node) (index : Nat) (elements : List Value) :
    AllFound (Violation.At outer) (checkElements descend outer node index elements) := by
  induction elements generalizing index with
  | nil => exact .pure nofun
  | cons v rest ih =>
    have here := checkElement_at inner (outer ++ [.index index]) node v
    exact (here.imp fun b behind => behind.outward).append (ih (index + 1))

theorem insideArray_at (references : Option (References Id)) (location : Location) (v : Value) (node : Node) :
    AllFound (Violation.At location) (insideArray references descend location v node) := by
  unfold insideArray
  split
  · split
    · exact .bind fun resolved _ => checkElements_at inner location resolved 0 _
    · exact .pure nofun
  · exact .pure nofun

end

section

variable {descend : Nat → Descent Id}
  (inner : ∀ taken members node, AllFound Violation.InMember (descend taken members node))
  (references : Option (References Id))
include inner

theorem checkMember_at (name : String) (node : Node) (v : Value) :
    AllFound (Violation.At [.name name]) (checkMember (steady references) descend name node v) := by
  have own := typeBreach_at [.name name] v node (v.isNull && node.nullable)
  have objects := insideObject_at (inner 1) [.name name] v node
  have elements := insideArray_at (inner 2) references [.name name] v node
  unfold checkMember
  simp only [List.append_assoc]
  exact .bind fun a first => .bind fun b second => .pure fun w among =>
    (List.mem_append.mp among).elim (own w) fun among =>
      (List.mem_append.mp among).elim (objects a first w) (elements b second w)

theorem checkMembers_at (members : List (String × Value)) (properties : List (String × Node)) :
    AllFound Violation.InMember (checkMembers (steady references) descend members properties) := by
  induction properties with
  | nil => exact .pure nofun
  | cons property rest ih =>
    obtain ⟨name, node⟩ := property
    unfold checkMembers
    cases lookup? name members with
    | none => exact ih
    | some v =>
      refine .bind fun resolved _ => ?_
      have first := checkMember_at inner references name resolved v
      exact (first.imp fun b behind => ⟨name, behind⟩).append ih

end

theorem missing_at (members : List (String × Value)) (required : List String) :
    ∀ b ∈ missing members required, b.InMember := by
  intro b among
  obtain ⟨name, _, rfl⟩ := List.mem_map.mp among
  exact ⟨name, ⟨[], rfl⟩, fun _ => ⟨[], name, rfl⟩⟩

theorem checkObject_at (references : Option (References Id)) (room taken : Nat) :
    ∀ members node, AllFound Violation.InMember (checkObject (steady references) room taken members node) := by
  induction room generalizing taken with
  | zero => exact fun _ _ _ cutOff => nomatch cutOff
  | succ room ih =>
    cases taken with
    | succ taken => exact ih taken
    | zero =>
      exact fun members node => .behind (missing_at members node.required)
        (checkMembers_at ih references members _)

theorem reports_ne_tooDeep (found : List Violation) : found.map Violation.report ≠ [tooDeep] := by
  intro same
  obtain ⟨b, _, reported⟩ := List.map_eq_singleton_iff.mp same
  exact b.report_ne_tooDeep reported

/-- That a payload is nested too deep is said of the whole payload, never of a part of it. -/
theorem tooDeep_ne_within (outer : String) (errors : List SchemaError) :
    [tooDeep] ≠ errors.map (·.within (outer ++ ".")) := by
  intro same
  obtain ⟨error, _, reported⟩ := List.map_eq_singleton_iff.mp same.symm
  have lengths := congrArg (fun e => e.path.length) reported
  simp only [SchemaError.within, tooDeep, String.length_append, String.length_empty] at lengths
  have dot : (".").length = 1 := rfl
  omega

section

variable {references : Option (References Id)} {room : Nat} {name : String}
  {members : List (String × Value)} {schema : Value}

theorem memberErrors_unreadable {v : Value} (unreadable : ¬ 2 + Node.calls schema ≤ room) :
    memberErrors references room name v schema = [tooDeep] := by
  have calls := calls_properties_single name schema
  rw [memberErrors, checkRaw, Node.read?, if_pos (by omega)]
  rfl

theorem checkRaw_object (readable : Node.calls schema ≤ room + 1) :
    Id.run (checkRaw (steady references) (room + 1) (.obj members) schema) =
      reports (result? (checkObject (steady references) (room + 1) 0 members
        (governing references schema))) :=
  checkRaw_of_readable (fun _ => Nat.succ_pos room) readable references

variable (typed : (governing references schema).type = some Kind.object.name)
include typed

theorem checkMember_object (descend : Nat → Descent Id) :
    result? (checkMember (steady references) descend name (governing references schema) (.obj members)) =
      if (governing references schema).properties.isSome then
        (result? (descend 1 members (governing references schema))).map fun found =>
          found.map (·.under [.name name])
      else some [] := by
  have own : typeBreach [.name name] (.obj members) (governing references schema)
      ((Value.obj members).isNull && (governing references schema).nullable) = [] := by
    simp [typeBreach, typed, hasType, kindOf]
  rw [checkMember, own]
  by_cases listed : (governing references schema).properties.isSome = true
  · simp only [insideObject, insideArray, typed, listed, decide_true, Bool.and_self, if_true, bind_assoc,
      pure_bind, result?_bind, result?_pure, List.nil_append, List.append_nil]
    rw [Option.map_eq_bind]
    rfl
  · simp only [insideObject, insideArray, listed, Bool.and_false, Bool.false_eq_true, if_false, pure_bind]
    rfl

omit typed in
/-- What is found in an object as a member is found in it on its own, where one call less is taken and one
more is left. -/
theorem checkObject_alone {node : Node} {found : List Violation}
    (nested : result? (checkObject (steady references) room 1 members node) = some found) :
    result? (checkObject (steady references) (room + 1) 0 members node) = some found := by
  have self : Resembling references references Eq := resembling_self fun _ => rfl
  cases room with
  | zero => exact nomatch nested
  | succ room =>
    exact checkObject_prolongs self (Nat.le_add_right room 2) 0 members (.self (fun _ => rfl) node) found
      nested

/-- What is found in an object on its own is reported on it as a member with the name in front, unless the
object around it is one too many. -/
theorem nested_of_listed (readable : 2 + Node.calls schema ≤ room + 1)
    (listed : (governing references schema).properties.isSome = true) :
    memberErrors references (room + 1) name (.obj members) schema = [tooDeep] ∨
      memberErrors references (room + 1) name (.obj members) schema ≠ [tooDeep] ∧
        memberErrors references (room + 1) name (.obj members) schema =
          (Id.run (checkRaw (steady references) (room + 1) (.obj members) schema)).map
            (·.within (name ++ ".")) := by
  rw [memberErrors_eq readable, checkMember_object typed, if_pos listed]
  cases nested : result? (checkObject (steady references) room 1 members
    (governing references schema)) with
  | none => exact Or.inl rfl
  | some found =>
    refine Or.inr ⟨reports_ne_tooDeep _, ?_⟩
    have inside := checkObject_at references room 1 members (governing references schema) found nested
    rw [checkRaw_object (by omega), checkObject_alone nested, Option.map_some, reports, reports,
      List.map_map, List.map_map]
    refine List.map_congr_left fun b among => ?_
    obtain ⟨s, behind⟩ := inside b among
    exact Violation.report_under_name behind name

/-- An object whose schema lists no properties is not looked into as a member. -/
theorem nested_of_unlisted (readable : 2 + Node.calls schema ≤ room + 1)
    (unlisted : ¬ (governing references schema).properties.isSome = true) :
    memberErrors references (room + 1) name (.obj members) schema = [] := by
  rw [memberErrors_eq readable, checkMember_object typed, if_neg unlisted]
  rfl

theorem nested_of_shallow (readable : 2 + Node.calls schema ≤ room)
    (shallow : 2 + (Value.obj members).callDepth ≤ room) :
    memberErrors references room name (.obj members) schema ≠ [tooDeep] := by
  obtain ⟨r, rfl⟩ := Nat.exists_eq_add_one.mpr (by omega : 0 < room)
  have enough : 1 + (Value.obj members).callDepth ≤ r := by omega
  rw [memberErrors_eq readable, checkMember_object typed]
  split
  · obtain ⟨found, result, _⟩ : Alike [] [] (checkObject (steady references) r 1 members _) _ :=
      checkObject_alike enough enough members (governing references schema) rfl
    rw [result]
    exact reports_ne_tooDeep _
  · exact reports_ne_tooDeep []

omit typed

/-- On its own, such an object has to have what its schema requires. -/
theorem checkRaw_of_unlisted (readable : Node.calls schema ≤ room + 1)
    (unlisted : ¬ (governing references schema).properties.isSome = true) :
    Id.run (checkRaw (steady references) (room + 1) (.obj members) schema) =
      (missing members (governing references schema).required).map Violation.report := by
  have none : (governing references schema).properties = none := by simpa using unlisted
  have found : result? (checkObject (steady references) (room + 1) 0 members
      (governing references schema)) =
        some (missing members (governing references schema).required) := by
    rw [checkObject, none, Option.getD_none, checkMembers, pure_bind, result?_pure, List.append_nil]
  rw [checkRaw_object readable]
  exact congrArg reports found

theorem missing_eq_nil_iff (required : List String) :
    missing members required = [] ↔ ∀ name ∈ required, (lookup? name members).isSome = true := by
  simp [missing, Option.ne_none_iff_isSome]

/-- An object is checked as a member as it is on its own, the step to it aside, exactly if the check of
the object around it is not cut off and its schema lists properties or requires nothing that it lacks.
The check is not cut off where there is room for the two calls that it takes more. -/
theorem nested_object_agrees_iff (typed : (governing references schema).type = some Kind.object.name) :
    (memberErrors references room name (.obj members) schema =
        (Id.run (checkRaw (steady references) room (.obj members) schema)).map
          (·.within (name ++ ".")) ↔
      memberErrors references room name (.obj members) schema ≠ [tooDeep] ∧
        ((governing references schema).properties.isSome = true ∨
          ∀ demanded ∈ (governing references schema).required,
            (lookup? demanded members).isSome = true)) ∧
    (2 + Node.calls schema ≤ room → 2 + (Value.obj members).callDepth ≤ room →
      memberErrors references room name (.obj members) schema ≠ [tooDeep]) := by
  refine ⟨?_, nested_of_shallow typed⟩
  have cutOff (cut : memberErrors references room name (.obj members) schema = [tooDeep]) :
      memberErrors references room name (.obj members) schema ≠
        (Id.run (checkRaw (steady references) room (.obj members) schema)).map
          (·.within (name ++ ".")) :=
    cut ▸ tooDeep_ne_within name _
  by_cases readable : 2 + Node.calls schema ≤ room
  · obtain ⟨r, rfl⟩ := Nat.exists_eq_add_one.mpr (by omega : 0 < room)
    by_cases listed : (governing references schema).properties.isSome = true
    · rcases nested_of_listed typed readable listed with cut | ⟨whole, same⟩
      · exact iff_of_false (cutOff cut) fun whole => whole.1 cut
      · exact iff_of_true same ⟨whole, Or.inl listed⟩
    · have nothing : memberErrors references (r + 1) name (.obj members) schema = [] :=
        nested_of_unlisted typed readable listed
      have lacks : (Id.run (checkRaw (steady references) (r + 1) (.obj members) schema)).map
          (·.within (name ++ ".")) = [] ↔
            missing members (governing references schema).required = [] := by
        rw [checkRaw_of_unlisted (by omega) listed, List.map_eq_nil_iff, List.map_eq_nil_iff]
      rw [nothing, eq_comm, lacks, missing_eq_nil_iff]
      simp [listed]
  · have cut := @memberErrors_unreadable references room name schema (.obj members) readable
    exact iff_of_false (cutOff cut) fun whole => whole.1 cut

end

theorem nested_object_agrees_iff_tree :
    let references := some (Spec.references standardRoom treeDocument)
    (governing references treeReference).type = some Kind.object.name ∧
      2 + Node.calls treeReference ≤ standardRoom ∧ 2 + treePayload.callDepth ≤ standardRoom ∧
      memberErrors references standardRoom "root" treePayload treeReference =
        (Id.run (checkRaw (steady references) standardRoom treePayload treeReference)).map
          (·.within "root.") := by
  intro references
  have typed : (governing references treeReference).type = some Kind.object.name := by decide
  have readable : 2 + Node.calls treeReference ≤ standardRoom := by decide
  have shallow : 2 + treePayload.callDepth ≤ standardRoom := by decide
  obtain ⟨agrees, whole⟩ := nested_object_agrees_iff typed
  exact ⟨typed, readable, shallow, agrees.mpr ⟨whole readable shallow, Or.inl (by decide)⟩⟩

/-- The schema of an object that has to have a name. -/
def namedObject : Value := .obj [("type", .str "object"), ("required", .arr [.str "name"])]

/-- A name that an object on its own has to have is not asked for in a member whose schema lists no
properties. -/
theorem nested_object_disagrees :
    (governing none namedObject).type = some Kind.object.name ∧
      memberErrors none standardRoom "k" (.obj []) namedObject = [] ∧
      (Id.run (checkRaw (steady none) standardRoom (.obj []) namedObject)).map (·.within "k.") =
        [⟨"k.name", "Required field \"name\" is missing"⟩] := by
  refine ⟨by decide, by decide, ?_⟩
  decide +kernel

end PayloadCheck.Schema
