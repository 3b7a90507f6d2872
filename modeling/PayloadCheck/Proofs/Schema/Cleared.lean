import PayloadCheck.Proofs.Schema.Report
import PayloadCheck.Proofs.Schema.Resemblance
import PayloadCheck.Proofs.Schema.Written

namespace PayloadCheck.Schema

open Json

mutual

/-- A schema that demands nothing where it refers to another, and the same inside. -/
def cleared : Value → Value
  | .obj members =>
    match lookup? "$ref" members with
    | some (.str _) => .obj []
    | _ => .obj (clearedMembers members)
  | v => v

def clearedMembers : List (String × Value) → List (String × Value)
  | [] => []
  | (key, v) :: rest =>
    (key, if key = "items" then cleared v else if key = "properties" then clearedProperties v else v) ::
      clearedMembers rest

def clearedProperties : Value → Value
  | .obj entries => .obj (clearedEntries entries)
  | v => v

def clearedEntries : List (String × Value) → List (String × Value)
  | [] => []
  | (name, v) :: rest => (name, cleared v) :: clearedEntries rest

end

mutual

theorem calls_cleared_le (v : Value) : Node.calls (cleared v) ≤ Node.calls v := by
  cases v with
  | obj members =>
    have inside := calls_clearedMembers_le members
    unfold cleared
    split
    · simp only [Node.calls, Node.callsOfMembers]
      omega
    · simp only [Node.calls]
      omega
  | _ => exact Nat.le_refl _

theorem calls_clearedMembers_le (members : List (String × Value)) :
    Node.callsOfMembers (clearedMembers members) ≤ Node.callsOfMembers members := by
  cases members with
  | nil => exact Nat.le_refl _
  | cons member rest =>
    obtain ⟨key, v⟩ := member
    refine max_le_max (calls_clearedMembers_le rest) ?_
    by_cases atItems : key = "items"
    · simp only [if_pos atItems]
      exact calls_cleared_le v
    · by_cases atProperties : key = "properties"
      · simp only [if_neg atItems, if_pos atProperties]
        exact calls_clearedProperties_le v
      · simp only [if_neg atItems, if_neg atProperties, Nat.le_refl]

theorem calls_clearedProperties_le (v : Value) :
    Node.callsOfEntries (clearedProperties v) ≤ Node.callsOfEntries v := by
  cases v with
  | obj entries => exact Nat.add_le_add_left (calls_clearedEntries_le entries) 1
  | _ => exact Nat.le_refl _

theorem calls_clearedEntries_le (entries : List (String × Value)) :
    Node.callsOfList (clearedEntries entries) ≤ Node.callsOfList entries := by
  cases entries with
  | nil => exact Nat.le_refl _
  | cons entry rest => exact max_le_max (calls_clearedEntries_le rest) (calls_cleared_le entry.2)

end

theorem lookup?_clearedMembers (key : String) (members : List (String × Value)) :
    lookup? key (clearedMembers members) = (lookup? key members).map fun v =>
      if key = "items" then cleared v else if key = "properties" then clearedProperties v else v := by
  induction members with
  | nil => rfl
  | cons member rest ih =>
    obtain ⟨name, v⟩ := member
    by_cases same : name = key
    · subst same
      simp [clearedMembers, lookup?]
    · simpa [clearedMembers, lookup?, same] using ih

theorem clearedEntries_eq (entries : List (String × Value)) :
    clearedEntries entries = entries.map fun entry => (entry.1, cleared entry.2) := by
  induction entries with
  | nil => rfl
  | cons entry rest ih => rw [clearedEntries, ih, List.map_cons]

theorem clearedMembers_eq (members : List (String × Value)) :
    clearedMembers members = members.map fun member => (member.1,
      if member.1 = "items" then cleared member.2
      else if member.1 = "properties" then clearedProperties member.2 else member.2) := by
  induction members with
  | nil => rfl
  | cons member rest ih => rw [clearedMembers, ih, List.map_cons]

theorem hasStrayName_cleared {v : Value} (named : Node.hasStrayName v = false) :
    Node.hasStrayName (cleared v) = false := by
  induction v using Value.induct with
  | step v ih =>
    cases v with
    | obj members =>
      unfold cleared
      split
      · rfl
      · rw [clearedMembers_eq]
        refine Node.hasStrayMember_eq_false.mpr (List.forall_mem_map.mpr fun member among => ?_)
        obtain ⟨atItems, atProperties, other⟩ := Node.hasStrayMember_eq_false.mp named member among
        obtain ⟨itself, inside⟩ := ih member.2 (List.mem_map_of_mem among)
        refine ⟨fun same => ?_, fun same => ?_, other⟩
        · rw [if_pos same]
          exact itself (atItems same)
        · have clear := atProperties same
          rw [if_neg (by rw [same]; decide), if_pos same]
          revert clear inside
          cases member.2 with
          | obj entries =>
            intro inside clear
            have listed := Node.hasStrayListed_eq_false.mp clear
            rw [clearedProperties, clearedEntries_eq]
            refine Node.hasStrayListed_eq_false.mpr (List.forall_mem_map.mpr fun entry held => ?_)
            exact inside entry.2 (List.mem_map_of_mem held) (listed entry held)
          | _ => exact fun _ _ => rfl
    | _ => exact named

/-- The schemas that are described before and after. -/
inductive Clears : Node → Node → Prop
  | intro (v : Value) : Clears (Node.described v) (Node.described (cleared v))

/-- An object stays an object. -/
theorem read_cleared (v : Value) :
    Option.Rel Clears (Node.ofValue? v) (Node.ofValue? (cleared v)) := by
  have described := Clears.intro v
  cases v with
  | obj members =>
    unfold cleared at described ⊢
    split at described <;> exact .some described
  | _ => exact .none

theorem properties_cleared (v : Value) :
    Option.Rel (Paired Clears) (Node.properties? v) (Node.properties? (clearedProperties v)) := by
  cases v with
  | obj entries =>
    refine .some (ofEntries_paired ?_)
    rw [clearedEntries_eq, Paired, List.forall₂_map_right_iff]
    exact List.forall₂_same.mpr fun entry _ => ⟨rfl, .intro entry.2⟩
  | _ => exact .none

/-- Only what stands under two keywords is changed. -/
theorem members_cleared (members : List (String × Value)) :
    SameLevel Clears (Node.ofMembers members) (Node.ofMembers (clearedMembers members)) := by
  refine sameLevel_ofMembers (fun key notItems notProperties => ?_) ?_ ?_
  · simp only [lookup?_clearedMembers, if_neg notItems, if_neg notProperties, Option.map_id']
  · rw [lookup?_clearedMembers]
    cases lookup? "properties" members with
    | none => exact .none
    | some v => exact properties_cleared v
  · rw [lookup?_clearedMembers]
    cases lookup? "items" members with
    | none => exact .none
    | some v => exact read_cleared v

/-- A reference is emptied; another schema keeps what it says of a value itself. -/
theorem Clears.cases {n n' : Node} (clears : Clears n n') :
    n.isRef = true ∧ n' = .empty ∨ n.isRef = false ∧ SameLevel Clears n n' := by
  obtain ⟨v⟩ := clears
  cases v with
  | obj members =>
    change (Node.ofMembers members).isRef = true ∧ _ ∨ (Node.ofMembers members).isRef = false ∧ _
    rw [Node.isRef, ref_ofMembers, cleared]
    split
    · rename_i held
      exact Or.inl ⟨by rw [held]; rfl, rfl⟩
    · rename_i other
      refine Or.inr ⟨?_, ?_⟩
      · rw [Option.isSome_eq_false_iff, Option.isNone_iff_eq_none, Option.bind_eq_none_iff]
        intro v held
        cases v with
        | str r => exact absurd held (other r)
        | _ => rfl
      · exact members_cleared members
  | _ => exact Or.inr ⟨rfl, ⟨rfl, rfl, rfl, .none, .none⟩⟩

/-- Lists that are related hold related things at the same places. -/
theorem forall₂_getElem? {α β : Type} {r : α → β → Prop} {xs : List α} {ys : List β}
    (related : List.Forall₂ r xs ys) {i : Nat} {a : α} (found : xs[i]? = some a) :
    ∃ b, ys[i]? = some b ∧ r a b := by
  obtain ⟨within, rfl⟩ := List.getElem?_eq_some_iff.mp found
  have within' : i < ys.length := related.length_eq ▸ within
  exact ⟨ys[i], List.getElem?_eq_getElem within', related.get within within'⟩

/-- A reference stands at a rank or on the way to it. -/
inductive PassesReference : Focus → Rank → Prop
  | here {f rank} : f.schema.isRef = true → PassesReference f rank
  | inside {f g k step rank} :
      Inward none f k step g → PassesReference g rank → PassesReference f (k :: rank)

/-- The number of a step tells where it leads. -/
theorem Inward.unique {f g g' : Focus} {k : Nat} {step step' : Step} (inward : Inward none f k step g)
    (inward' : Inward none f k step' g') : g = g' := by
  generalize same : k = number at inward'
  cases inward with
  | member isObject _ declared listed found ends =>
    cases inward' with
    | member isObject' _ declared' listed' found' ends' =>
      cases isObject.symm.trans isObject'
      cases declared.symm.trans declared'
      cases Nat.add_left_cancel same
      cases listed.symm.trans listed'
      cases found.symm.trans found'
      rw [show _ = _ from ends, show _ = _ from ends']
    | element isArray => cases isObject.symm.trans isArray
  | element isArray _ _ given atIndex ends =>
    cases inward' with
    | member isObject => cases isObject.symm.trans isArray
    | element isArray' _ _ given' atIndex' ends' =>
      cases same
      cases isArray.symm.trans isArray'
      cases given.symm.trans given'
      cases atIndex.symm.trans atIndex'
      rw [show _ = _ from ends, show _ = _ from ends']

/-- An empty schema finds nothing wrong. -/
theorem not_breaks_empty {f : Focus} {rank : Rank} {b : Violation} (empty : f.schema = .empty) :
    ¬ Breaks none f rank b := by
  obtain ⟨place, v, _⟩ := f
  cases empty
  intro breaks
  cases breaks with
  | missing _ _ listed => exact nomatch listed
  | mismatch _ declared => exact nomatch declared
  | inside inward =>
    cases inward with
    | member _ _ declared => exact nomatch declared
    | element _ _ _ given => exact nomatch given

section

variable {R : Node → Node → Prop} {place place' : Place} {v v' : Value} {n n' m : Node}
  (same : SameLevel R n n')
include same

theorem SameLevel.opens_iff : Focus.Opens ⟨place, v, n⟩ ↔ Focus.Opens ⟨place, v, n'⟩ := by
  rw [Focus.Opens, Focus.Opens, same.type, same.properties_isSome]

/-- Schemas of the same level have the same steps inward. -/
theorem SameLevel.inward {k : Nat} {step : Step} (inward : Inward none ⟨place, v, n⟩ k step ⟨place', v', m⟩) :
    ∃ m', R m m' ∧ Inward none ⟨place, v, n'⟩ k step ⟨place', v', m'⟩ := by
  cases inward with
  | @member members properties j name property _ _ isObject opens declared listed found ends =>
    cases ends
    rcases rel_cases same.properties with ⟨absent, _⟩ | ⟨_, properties', given, given', pairs⟩
    · exact nomatch absent.symm.trans declared
    · cases given.symm.trans declared
      obtain ⟨⟨name', property'⟩, listed', rfl, related⟩ := forall₂_getElem? pairs listed
      refine ⟨property', related, ?_⟩
      have inside : Inward none ⟨place, v, n'⟩ (n'.required.length + j) (.name name)
          ⟨.member, v', property'⟩ :=
        .member isObject (same.opens_iff.mp opens) given' listed' found rfl
      rwa [← same.required] at inside
  | element isArray looked typed given atIndex ends =>
    cases ends
    rcases rel_cases same.items with ⟨absent, _⟩ | ⟨_, items', held, held', related⟩
    · exact nomatch absent.symm.trans given
    · cases held.symm.trans given
      exact ⟨items', related, .element isArray looked (same.type.symm.trans typed) held' atIndex rfl⟩

end

/-- What is wrong on no way past a reference stays wrong. -/
theorem Breaks.cleared {f : Focus} {rank : Rank} {b : Violation} (breaks : Breaks none f rank b)
    (clean : ¬ PassesReference f rank) {n' : Node} (clears : Clears f.schema n') :
    Breaks none ⟨f.place, f.value, n'⟩ rank b := by
  induction breaks generalizing n' with
  | @missing f members k name isObject opens listed absent =>
    obtain ⟨ref, _⟩ | ⟨_, same⟩ := clears.cases
    · exact absurd (.here ref) clean
    · exact .missing isObject (same.opens_iff.mp opens) (same.required ▸ listed) absent
  | @mismatch f declared notRoot declares differs strict =>
    obtain ⟨ref, _⟩ | ⟨_, same⟩ := clears.cases
    · exact absurd (.here ref) clean
    · refine .mismatch notRoot (same.type ▸ declares) differs fun excused => strict ?_
      exact ⟨excused.1, excused.2.1, same.nullable.trans excused.2.2⟩
  | inside inward _ ih =>
    obtain ⟨ref, _⟩ | ⟨_, same⟩ := clears.cases
    · exact absurd (.here ref) clean
    · obtain ⟨m', clears', inward'⟩ := same.inward inward
      exact .inside inward' (ih (fun passes => clean (.inside inward passes)) clears')

theorem PassesReference.nil_iff {f : Focus} : PassesReference f [] ↔ f.schema.isRef = true :=
  ⟨fun | .here ref => ref, .here⟩

/-- The required names of a schema are numbered before any step inward. -/
theorem Inward.not_required {place : Place} {members : List (String × Value)} {n : Node} {g : Focus}
    {k : Nat} {step : Step} (inward : Inward none ⟨place, .obj members, n⟩ k step g) :
    n.required[k]? = none := by
  cases inward with
  | member => exact List.getElem?_eq_none (Nat.le_add_right _ _)
  | element isArray => cases isArray

/-- What is still wrong has been wrong, on no way past a reference. -/
theorem Breaks.of_cleared {f : Focus} {rank : Rank} {b : Violation} (breaks : Breaks none f rank b)
    {n : Node} (clears : Clears n f.schema) :
    Breaks none ⟨f.place, f.value, n⟩ rank b ∧ ¬ PassesReference ⟨f.place, f.value, n⟩ rank := by
  -- On the way to what is wrong no schema is empty, so that none of them has come from a reference.
  induction breaks generalizing n with
  | @missing f members k name isObject opens listed absent =>
    obtain ⟨_, empty⟩ | ⟨plain, same⟩ := clears.cases
    · exact absurd (.missing isObject opens listed absent) (not_breaks_empty empty)
    · have required : n.required[k]? = some name := same.required.symm ▸ listed
      refine ⟨.missing isObject (same.opens_iff.mpr opens) required absent, fun passes => ?_⟩
      cases passes with
      | here ref => exact nomatch plain.symm.trans ref
      | inside inward =>
        rw [isObject] at inward
        exact nomatch inward.not_required.symm.trans required
  | @mismatch f declared notRoot declares differs strict =>
    obtain ⟨_, empty⟩ | ⟨plain, same⟩ := clears.cases
    · exact absurd (.mismatch notRoot declares differs strict) (not_breaks_empty empty)
    · refine ⟨.mismatch notRoot (same.type.trans declares) differs fun excused => strict ?_,
        fun passes => ?_⟩
      · exact ⟨excused.1, excused.2.1, same.nullable.symm.trans excused.2.2⟩
      · exact nomatch plain.symm.trans (PassesReference.nil_iff.mp passes)
  | @inside f g k step rank b inward rest ih =>
    obtain ⟨_, empty⟩ | ⟨plain, same⟩ := clears.cases
    · exact absurd (.inside inward rest) (not_breaks_empty empty)
    · obtain ⟨m, clears', inward'⟩ := same.swap.inward inward
      obtain ⟨before, clean⟩ := ih clears'
      refine ⟨.inside inward' before, fun passes => ?_⟩
      cases passes with
      | here ref => exact nomatch plain.symm.trans ref
      | inside other passes =>
        have along := inward'.unique other
        exact clean (along ▸ passes)

theorem Clears.faulty_iff {n n' : Node} (clears : Clears n n') {data : Value} {rank : Rank}
    {b : Violation} :
    Faulty none ⟨.root, data, n'⟩ rank b.location b.breach ↔
      Faulty none ⟨.root, data, n⟩ rank b.location b.breach ∧
        ¬ PassesReference ⟨.root, data, n⟩ rank := by
  constructor
  · intro faulty
    obtain ⟨before, clean⟩ := faulty.breaks.of_cleared clears
    exact ⟨before.faulty, clean⟩
  · rintro ⟨faulty, clean⟩
    exact (faulty.breaks.cleared clean clears).faulty

/-- An error stays deserved unless a reference stands on the way to it. -/
theorem Clears.deserves_iff {n n' : Node} (clears : Clears n n') {data : Value} {rank : Rank}
    {error : SchemaError} :
    Deserves none data n' rank error ↔
      Deserves none data n rank error ∧ ¬ PassesReference ⟨.root, data, n⟩ rank := by
  simp only [Schema.deserves_iff, clears.faulty_iff]
  constructor
  · rintro ⟨b, ⟨faulty, clean⟩, said⟩
    exact ⟨⟨b, faulty, said⟩, clean⟩
  · rintro ⟨⟨b, faulty, said⟩, clean⟩
    exact ⟨b, ⟨faulty, clean⟩, said⟩

/-- Without references to look up, a payload gets exactly the errors that it deserves under the schema
that a value describes. -/
theorem validate_plain_exact {room : Nat} {data schema : Value} (readable : Node.calls schema ≤ room)
    (named : Node.hasStrayName schema = false) (shallow : data.callDepth ≤ room) :
    ∃ errors, validate data schema { room := room } = .ok errors ∧
      Exact (Deserves none data (Node.described schema)) errors := by
  have bounded : ∀ table ∈ (none : Option (References Id)), table.Bounded := by
    rintro _ ⟨⟩
  have itself : Dereferenced none (Node.described schema) (Node.described schema) := rfl
  obtain ⟨found, result, exact⟩ := violations_exact bounded itself shallow
  have fits (object : data.isObject = true) : 0 < room := by
    cases data with
    | obj members =>
      rw [Value.callDepth] at shallow
      omega
    | _ => cases object
  refine ⟨found.map Violation.report, ?_, (exact.map _).congr fun rank error => Schema.deserves_iff.symm⟩
  have read : Node.readError? room schema = none := Node.readError?_eq_none named room
  rw [validate_eq (d := { room := room }) read, Target.checkAfter_eq (by rintro _ ⟨⟩)]
  exact congrArg Except.ok ((checkRaw_of_readable fits readable none).trans (congrArg reports result))

/-- Without references to look up, emptying every reference takes away exactly the errors on the way to
which a reference stands. The errors stay the same if and only if there is no such error. A schema with a
name that is no text is not read at all. -/
theorem cleared_errors_exact {room : Nat} {data schema : Value} (readable : Node.calls schema ≤ room)
    (shallow : data.callDepth ≤ room) :
    (Node.hasStrayName schema = true → validate data schema { room := room } = .error Node.strayName) ∧
    (Node.hasStrayName schema = false →
      ∃ errors left, validate data schema { room := room } = .ok errors ∧
        validate data (cleared schema) { room := room } = .ok left ∧
        Exact (fun rank error => Deserves none data (Node.described schema) rank error ∧
          ¬ PassesReference ⟨.root, data, Node.described schema⟩ rank) left ∧
        (errors = left ↔ ∀ rank error, Deserves none data (Node.described schema) rank error →
          ¬ PassesReference ⟨.root, data, Node.described schema⟩ rank)) := by
  refine ⟨fun stray => validate_error (by rw [Node.readError?_of_calls readable, if_pos stray]),
    fun named => ?_⟩
  obtain ⟨errors, reported, before⟩ := validate_plain_exact readable named shallow
  obtain ⟨left, reported', after⟩ := validate_plain_exact
    (Nat.le_trans (calls_cleared_le schema) readable) (hasStrayName_cleared named) shallow
  have remain := after.congr fun rank error => (Clears.intro schema).deserves_iff
  exact ⟨errors, left, reported, reported', remain, before.eq_iff remain⟩

/-- A pet that refers to another schema and is to be a text beside that. -/
def petHolder : Value :=
  .obj [("required", .arr [.str "id"]),
    ("properties", .obj [("pet",
      .obj [("$ref", .str "#/definitions/Pet"), ("type", .str "string")])])]

def petPayload : Value := .obj [("pet", .int 1)]

theorem cleared_errors_exact_pet :
    Node.calls petHolder ≤ standardRoom ∧ petPayload.callDepth ≤ standardRoom ∧
      Node.hasStrayName petHolder = false ∧
      Exact (fun rank error => Deserves none petPayload (Node.described petHolder) rank error ∧
          ¬ PassesReference ⟨.root, petPayload, Node.described petHolder⟩ rank)
        [⟨"id", "Required field \"id\" is missing"⟩] ∧
      ∃ rank error, Deserves none petPayload (Node.described petHolder) rank error ∧
        PassesReference ⟨.root, petPayload, Node.described petHolder⟩ rank := by
  have readable : Node.calls petHolder ≤ standardRoom := by decide
  have shallow : petPayload.callDepth ≤ standardRoom := by decide
  have named : Node.hasStrayName petHolder = false := by decide
  have reported : validate petPayload petHolder {} =
      .ok [⟨"id", "Required field \"id\" is missing"⟩,
        ⟨"pet", "Field \"pet\" must be of type string, got integer"⟩] := by decide
  have reported' : validate petPayload (cleared petHolder) {} =
      .ok [⟨"id", "Required field \"id\" is missing"⟩] := by decide
  obtain ⟨errors, left, before, after, exact, same⟩ := (cleared_errors_exact readable shallow).2 named
  obtain rfl := Except.ok.inj (before.symm.trans reported)
  obtain rfl := Except.ok.inj (after.symm.trans reported')
  have past := mt same.mpr (by decide)
  push Not at past
  exact ⟨readable, shallow, named, exact, past⟩

/-- What is required beside a reference is demanded, though there is nothing to look the reference up
in. -/
theorem beside_reference_demanded :
    validate (.obj [])
        (.obj [("$ref", .str "#/definitions/Pet"), ("required", .arr [.str "name"])]) {} =
      .ok [⟨"name", "Required field \"name\" is missing"⟩] ∧
    validate (.obj [])
        (cleared (.obj [("$ref", .str "#/definitions/Pet"), ("required", .arr [.str "name"])])) {} =
      .ok [] := by
  decide

end PayloadCheck.Schema
