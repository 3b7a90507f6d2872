import Mathlib.Data.List.TakeDrop
import PayloadCheck.Outcome
import PayloadCheck.Proofs.Json.Wording
import PayloadCheck.Proofs.Schema.Written
import PayloadCheck.Proofs.Text.Whole

namespace PayloadCheck.Schema

open Json

/-- The names and the types in a schema consist of characters, and so do those of the schemas in it. What
else it holds is never told. -/
structure Node.Spoken (n : Node) : Prop where
  type : ∀ t ∈ n.type, Text.isWhole t = true
  properties : ∀ entries ∈ n.properties, ∀ entry ∈ entries,
    Text.isWhole entry.1 = true ∧ entry.2.toValue.isWhole = true
  required : ∀ name ∈ n.required, Text.isWhole name = true
  items : ∀ inner ∈ n.items, inner.toValue.isWhole = true

theorem Node.spoken_of_whole {n : Node} (whole : n.toValue.isWhole = true) : n.Spoken := by
  rw [toValue_eq] at whole
  have each : ∀ member ∈ n.written, Text.isWhole member.1 = true ∧ member.2.isWhole = true :=
    Value.haveWhole_iff.mp whole
  simp only [written, List.mem_append, mem_optional] at each
  refine ⟨fun t declared => ?_, fun entries given entry among => ?_, fun name among => ?_,
    fun inner given => ?_⟩
  · exact (each ("type", .str t) (.inl ⟨rfl, by rw [declared]; rfl⟩)).2
  · have listed := (each ("properties", .obj (entryValues entries))
      (.inr (.inl ⟨rfl, by rw [given]; rfl⟩))).2
    rw [entryValues_eq] at listed
    exact Value.haveWhole_iff.mp listed _ (List.mem_map_of_mem among)
  · have listed := (each ("required", .arr (n.required.map .str))
      (.inr (.inr (.inl ⟨rfl, if_neg (List.ne_nil_of_mem among)⟩)))).2
    exact Value.areWhole_iff.mp listed _ (List.mem_map_of_mem among)
  · exact (each ("items", inner.toValue) (.inr (.inr (.inr (.inl ⟨rfl, by rw [given]; rfl⟩))))).2

namespace Location

/-- The names on the way to a location consist of characters. -/
def Spoken (location : Location) : Prop := ∀ s, .name s ∈ location → Text.isWhole s = true

theorem spoken_append {outer inner : Location} :
    Spoken (outer ++ inner) ↔ outer.Spoken ∧ inner.Spoken := by
  simp only [Spoken, List.mem_append, or_imp, forall_and]

theorem spoken_nil : Spoken [] := fun _ among => nomatch among

theorem spoken_name {s : String} (whole : Text.isWhole s = true) : Spoken [.name s] := by
  intro t among
  cases List.mem_singleton.mp among
  exact whole

theorem spoken_index (i : Nat) : Spoken [.index i] := by
  intro s among
  cases List.mem_singleton.mp among

theorem Spoken.stepTexts {location : Location} (spoken : location.Spoken) :
    Text.isWhole (String.join (location.map stepText)) = true := by
  refine Text.isWhole_join fun text listed => ?_
  obtain ⟨step, among, rfl⟩ := List.mem_map.mp listed
  cases step with
  | name s => simpa [stepText, spoken s among] using (by decide : Text.isWhole "." = true)
  | index i =>
    have opened : Visible ("[" ++ toString i) := Visible.append (by decide) (visible_natural i)
    exact (opened.append (by decide)).isWhole

theorem Spoken.text {location : Location} (spoken : location.Spoken) :
    Text.isWhole location.text = true := by
  match location with
  | [] => decide
  | .name s :: rest =>
    have first : Text.isWhole s = true := spoken s List.mem_cons_self
    have others : Spoken rest := fun t among => spoken t (List.mem_cons_of_mem _ among)
    rw [Location.text, Text.isWhole_append, first, others.stepTexts, Bool.and_self]
  | .index i :: rest => exact spoken.stepTexts

theorem mem_of_mem_span {α : Type} {p : α → Bool} {l front back : List α} (parts : l.span p = (front, back)) :
    (∀ a ∈ front, a ∈ l) ∧ ∀ a ∈ back, a ∈ l := by
  rw [List.span_eq_takeWhile_dropWhile] at parts
  obtain ⟨rfl, rfl⟩ := Prod.mk.inj parts
  exact ⟨fun _ among => (List.takeWhile_sublist p).mem among,
    fun _ among => (List.dropWhile_sublist p).mem among⟩

theorem mem_of_mem_tail {location : Location} {step : Step} (among : step ∈ location.tail) :
    step ∈ location := by
  unfold tail at among
  split at among
  · rename_i indices last outer parts
    obtain ⟨front, back⟩ := mem_of_mem_span parts
    rcases List.mem_cons.mp among with rfl | index
    · exact List.mem_reverse.mp (back _ List.mem_cons_self)
    · exact List.mem_reverse.mp (front _ (List.mem_reverse.mp index))
  · rename_i indices parts
    exact List.mem_reverse.mp ((mem_of_mem_span parts).1 _ (List.mem_reverse.mp among))

theorem Spoken.tail {location : Location} (spoken : location.Spoken) : Spoken location.tail :=
  fun s among => spoken s (mem_of_mem_tail among)

end Location

namespace Violation

/-- What a violation is told with consists of characters. -/
structure Spoken (v : Violation) : Prop where
  location : v.location.Spoken
  breach : ∀ declared found, v.breach = .mismatch declared found → Text.isWhole declared = true

theorem Spoken.under {v : Violation} (spoken : v.Spoken) {outer : Location} (from_ : outer.Spoken) :
    (v.under outer).Spoken :=
  ⟨Location.spoken_append.mpr ⟨from_, spoken.location⟩, spoken.breach⟩

theorem Spoken.message {v : Violation} (spoken : v.Spoken) : Text.isWhole v.message = true := by
  have names := spoken.location.text
  have last := spoken.location.tail.text
  have kinds (found : Kind) : Text.isWhole found.name = true := by cases found <;> decide
  have words : ["Required field \"", "\" is missing", "Array element \"", "Field \"",
      "\" must be of type ", ", got "].all Text.isWhole = true := by decide
  simp only [List.all_cons, List.all_nil, Bool.and_true, Bool.and_eq_true] at words
  unfold Violation.message
  split
  · rename_i s _ at_end
    have among : .name s ∈ v.location := List.mem_of_getLast? at_end
    simp [words, spoken.location s among]
  · simp [words, names]
  · rename_i declared found _ breach _
    simp [words, last, kinds, spoken.breach _ _ breach]
  · rename_i declared found _ breach _
    simp [words, last, kinds, spoken.breach _ _ breach]

end Violation

/-- The errors of a report consist of characters. -/
def SpokenErrors (errors : List SchemaError) : Prop :=
  ∀ e ∈ errors, Text.isWhole e.path = true ∧ Text.isWhole e.message = true

theorem spokenErrors_reports {found : Option (List Violation)}
    (spoken : ∀ violations ∈ found, ∀ v ∈ violations, v.Spoken) : SpokenErrors (reports found) := by
  intro e among
  cases found with
  | none =>
    obtain rfl := List.mem_singleton.mp among
    decide
  | some violations =>
    obtain ⟨v, listed, rfl⟩ := List.mem_map.mp among
    exact ⟨(spoken violations rfl v listed).location.text, (spoken violations rfl v listed).message⟩

/-- What computations of a kind assure of their results: those that only return a value assure what holds of
it, and a sequence what the second part assures of whatever the first may come to. -/
structure Assurance (m : Type → Type) [Monad m] where
  assures : {α : Type} → m α → (α → Prop) → Prop
  return_assures : ∀ {α : Type} {p : α → Prop} {a : α}, p a → assures (pure a) p
  then_assures : ∀ {α β : Type} {x : m α} {p : α → Prop} {f : α → m β} {q : β → Prop},
    assures x p → (∀ a, p a → assures (f a) q) → assures (x >>= f) q

section

variable {m : Type → Type} [Monad m]

namespace Assurance

/-- Whatever a check finds has a property. -/
def Finds (A : Assurance m) {α : Type} (x : OptionT m α) (p : α → Prop) : Prop :=
  A.assures x.run fun found => ∀ a ∈ found, p a

/-- A check finds nothing but what can be told. -/
def FindsSpoken (A : Assurance m) (x : Finding m) : Prop := A.Finds x fun found => ∀ v ∈ found, v.Spoken

/-- Whatever object is checked against a schema that can be told, nothing else is found. -/
def DescendsSpoken (A : Assurance m) (descend : Descent m) : Prop :=
  ∀ members (node : Node), node.Spoken → A.FindsSpoken (descend members node)

/-- Looking references up gives nothing but schemas that can be told. -/
def LooksUpSpoken (A : Assurance m) (references : Option (References m)) : Prop :=
  ∀ table ∈ references, ∀ ref, A.assures (table.lookup ref) fun found =>
    ∀ n ∈ found, n.toValue.isWhole = true

variable {A : Assurance m}

theorem finds_pure {α : Type} {p : α → Prop} {a : α} (holds : p a) : A.Finds (pure a) p := by
  refine A.return_assures (a := some a) ?_
  rintro _ ⟨⟩
  exact holds

theorem finds_nil : A.FindsSpoken (pure []) := finds_pure (List.forall_mem_nil _)

theorem finds_failure {α : Type} {p : α → Prop} : A.Finds failure p :=
  A.return_assures (a := none) fun _ absent => nomatch absent

theorem finds_bind {α β : Type} {x : OptionT m α} {p : α → Prop} {f : α → OptionT m β} {q : β → Prop}
    (first : A.Finds x p) (next : ∀ a, p a → A.Finds (f a) q) : A.Finds (x >>= f) q := by
  unfold Finds
  rw [OptionT.run_bind]
  refine A.then_assures first fun found each => ?_
  cases found with
  | none => exact A.return_assures fun _ absent => nomatch absent
  | some a => exact next a (each a rfl)

theorem finds_lift {α : Type} {x : m α} {p : α → Prop} (assured : A.assures x p) :
    A.Finds (OptionT.lift x) p := by
  unfold Finds
  rw [OptionT.run_lift]
  refine A.then_assures assured fun a holds => A.return_assures ?_
  rintro _ ⟨⟩
  exact holds

theorem follow_assures {references : Option (References m)} (spoken : A.LooksUpSpoken references)
    {node : Node} (whole : node.toValue.isWhole = true) :
    A.assures (follow references node) fun n => n.toValue.isWhole = true := by
  cases references with
  | none => exact A.return_assures whole
  | some table =>
    change A.assures (followFrom table.lookup (table.size + 1) [] node) _
    generalize table.size + 1 = count, ([] : List String) = followed
    induction count generalizing followed node with
    | zero => exact A.return_assures whole
    | succ count ih =>
      rw [followFrom]
      split
      · exact A.return_assures whole
      · split
        · exact A.return_assures whole
        · refine A.then_assures (spoken table rfl _) fun found each => ?_
          cases found with
          | none => exact A.return_assures whole
          | some target => exact ih (each target rfl) _

theorem typeBreach_spoken {location : Location} (told : location.Spoken) (v : Value) {node : Node}
    (spoken : node.Spoken) (excused : Bool) : ∀ b ∈ typeBreach location v node excused, b.Spoken := by
  unfold typeBreach
  split
  · rename_i declared typed
    split
    · exact List.forall_mem_nil _
    · refine List.forall_mem_singleton.mpr ⟨told, ?_⟩
      rintro _ _ ⟨⟩
      exact spoken.type declared typed
  · exact List.forall_mem_nil _

section Descent

variable {descend : Descent m} (descends : A.DescendsSpoken descend) {location : Location}
  (told : location.Spoken)
include descends told

theorem insideObject_spoken (v : Value) {node : Node} (spoken : node.Spoken) :
    A.FindsSpoken (insideObject descend location v node) := by
  cases v with
  | obj members =>
    by_cases opens : (node.type = some Kind.object.name && node.properties.isSome) = true
    · simp only [insideObject, opens, if_true]
      refine finds_bind (descends members node spoken) fun found each => finds_pure ?_
      intro v among
      obtain ⟨inner, listed, rfl⟩ := List.mem_map.mp among
      exact (each inner listed).under told
    · simp only [insideObject, opens]
      exact finds_nil
  | _ => exact finds_nil

theorem checkElement_spoken (v : Value) {node : Node} (spoken : node.Spoken) :
    A.FindsSpoken (checkElement descend location node v) :=
  finds_bind (insideObject_spoken descends told v spoken) fun _ inside =>
    finds_pure (List.forall_mem_append.mpr ⟨typeBreach_spoken told v spoken false, inside⟩)

theorem checkElements_spoken (elements : List Value) {node : Node} (spoken : node.Spoken) (index : Nat) :
    A.FindsSpoken (checkElements descend location node index elements) := by
  induction elements generalizing index with
  | nil => exact finds_nil
  | cons v rest ih =>
    have here : Location.Spoken (location ++ [.index index]) :=
      Location.spoken_append.mpr ⟨told, Location.spoken_index index⟩
    refine finds_bind (checkElement_spoken descends here v spoken) fun _ first => ?_
    exact finds_bind (ih (index + 1)) fun _ others =>
      finds_pure (List.forall_mem_append.mpr ⟨first, others⟩)

theorem insideArray_spoken {references : Option (References m)} (named : A.LooksUpSpoken references)
    (v : Value) {node : Node} (spoken : node.Spoken) :
    A.FindsSpoken (insideArray references descend location v node) := by
  unfold insideArray
  split
  · rename_i elements items given
    split
    · have ends := follow_assures named (spoken.items items given)
      refine finds_bind (finds_lift ends) fun resolved whole => ?_
      exact checkElements_spoken descends told elements (Node.spoken_of_whole whole) 0
    · exact finds_nil
  · exact finds_nil

end Descent

section Walk

variable {references : Nat → Option (References m)} (named : ∀ k, A.LooksUpSpoken (references k))
include named

theorem checkMembers_spoken {descend : Nat → Descent m} (descends : ∀ k, A.DescendsSpoken (descend k))
    (members : List (String × Value)) {properties : List (String × Node)}
    (spoken : ∀ entry ∈ properties, Text.isWhole entry.1 = true ∧ entry.2.toValue.isWhole = true) :
    A.FindsSpoken (checkMembers references descend members properties) := by
  induction properties with
  | nil => exact finds_nil
  | cons property rest ih =>
    obtain ⟨⟨whole, schema⟩, others⟩ := List.forall_mem_cons.mp spoken
    unfold checkMembers
    split
    · exact ih others
    · rename_i v _
      have told := Location.spoken_name whole
      refine finds_bind (finds_lift (follow_assures (named 0) schema)) fun resolved whole => ?_
      have inner := Node.spoken_of_whole whole
      have first : A.FindsSpoken (checkMember references descend property.1 resolved v) := by
        refine finds_bind (insideObject_spoken (descends 1) told v inner) fun _ objects => ?_
        refine finds_bind (insideArray_spoken (descends 2) told (named 2) v inner) fun _ elements => ?_
        refine finds_pure (List.forall_mem_append.mpr ⟨List.forall_mem_append.mpr ⟨?_, objects⟩, elements⟩)
        exact typeBreach_spoken told v inner _
      refine finds_bind first fun _ here => ?_
      exact finds_bind (ih others) fun _ behind => finds_pure (List.forall_mem_append.mpr ⟨here, behind⟩)

end Walk

/-- The induction is on the room. -/
theorem checkObject_spoken {references : Nat → Option (References m)}
    (named : ∀ k, A.LooksUpSpoken (references k)) (room taken : Nat) :
    A.DescendsSpoken (checkObject references room taken) := by
  induction room generalizing taken with
  | zero => exact fun _ _ _ => finds_failure
  | succ room ih =>
    intro members node spoken
    cases taken with
    | succ taken => exact ih taken members node spoken
    | zero =>
      rw [checkObject]
      have properties : ∀ entry ∈ node.properties.getD [],
          Text.isWhole entry.1 = true ∧ entry.2.toValue.isWhole = true := by
        cases given : node.properties with
        | none => exact List.forall_mem_nil _
        | some entries => exact spoken.properties entries given
      refine finds_bind (checkMembers_spoken (fun k => named (room - k)) (fun k => ih k) members properties)
        fun _ inside => finds_pure (List.forall_mem_append.mpr ⟨fun v among => ?_, inside⟩)
      obtain ⟨name, listed, rfl⟩ := List.mem_map.mp among
      refine ⟨Location.spoken_name (spoken.required name (List.mem_of_mem_filter listed)), ?_⟩
      rintro _ _ ⟨⟩

variable [LawfulMonad m]

/-- A schema that can be told gives errors that can be told, whatever is checked against it. -/
theorem check_spoken {references : Nat → Option (References m)}
    (named : ∀ k, A.LooksUpSpoken (references k)) (room : Nat) (v : Value) {node : Node}
    (whole : node.toValue.isWhole = true) : A.assures (check references room v node) SpokenErrors := by
  have found : A.FindsSpoken (violations references room v node) := by
    refine finds_bind (finds_lift (follow_assures (named room) whole)) fun resolved whole => ?_
    have spoken := Node.spoken_of_whole whole
    split
    · exact checkObject_spoken named room 0 _ resolved spoken
    · exact insideArray_spoken (checkObject_spoken named room 1) Location.spoken_nil (named _) v spoken
  unfold check
  rw [map_eq_pure_bind]
  exact A.then_assures found fun _ each => A.return_assures (spokenErrors_reports each)

/-- The schema errors of a text can be told if the schema that it is checked against can. -/
theorem checkText_spoken {target : m (Option Target)} {references : Nat → Option (References m)}
    (named : ∀ k, A.LooksUpSpoken (references k))
    (whole : A.assures target fun found => ∀ given ∈ found, ∃ n : Node,
      given = .node n ∧ n.toValue.isWhole = true) (text : List Char) (room : Nat) :
    A.assures (checkText text target references room) fun o =>
      o.syntaxDiagnosis = diagnose text ∧ SpokenErrors o.schemaErrors := by
  have none_ : SpokenErrors [] := List.forall_mem_nil _
  unfold checkText
  split
  · rename_i message place _ parsed
    exact A.return_assures ⟨(congrArg Prod.fst parsed).symm, none_⟩
  · rename_i v parsed
    have valid : Diagnosis.valid = diagnose text := (congrArg Prod.fst parsed).symm
    split
    · exact A.return_assures ⟨valid, none_⟩
    · refine A.then_assures whole fun found each => ?_
      cases found with
      | none => exact A.return_assures ⟨valid, none_⟩
      | some given =>
        obtain ⟨n, rfl, whole⟩ := each given rfl
        exact A.then_assures (check_spoken named room v whole) fun _ spoken =>
          A.return_assures ⟨valid, spoken⟩

end Assurance

end

end PayloadCheck.Schema
