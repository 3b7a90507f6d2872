import PayloadCheck.Proofs.Schema.Positions

namespace PayloadCheck.Schema

open Json

/-- A way to compare lists of violations. -/
structure Comparison where
  rel : List Violation → List Violation → Prop
  self : ∀ found, rel found found
  append : ∀ {a a' b b' : List Violation}, rel a a' → rel b b' → rel (a ++ b) (a' ++ b')
  under : ∀ {a a' : List Violation} (location : Location), rel a a' →
    rel (a.map (·.under location)) (a'.map (·.under location))

namespace Comparison

def equal : Comparison where
  rel := Eq
  self _ := rfl
  append same same' := same ▸ same' ▸ rfl
  under _ same := same ▸ rfl

/-- Some violations may be gone; the others stay, in the same order. -/
def fewer : Comparison where
  rel found left := left.Sublist found
  self := List.Sublist.refl
  append := List.Sublist.append
  under _ := List.Sublist.map _

/-- Whatever is found may be gone. -/
def Drops (Q : Comparison) : Prop := ∀ found, Q.rel found []

theorem fewer_drops : fewer.Drops := List.nil_sublist

theorem not_equal_drops : ¬ equal.Drops := fun drops => nomatch drops [⟨[], .missing⟩]

/-- Unless one check is cut off, the other is not, and what they find compares. -/
def Bounds (Q : Comparison) (x y : Finding Id) : Prop :=
  ∀ found, result? x = some found → ∃ found', result? y = some found' ∧ Q.rel found found'

namespace Bounds

variable {Q : Comparison} {x x' y y' : Finding Id}

theorem return_ {found found' : List Violation} (compares : Q.rel found found') :
    Q.Bounds (return found) (return found') := by
  intro other same
  obtain rfl := Option.some.inj same
  exact ⟨found', rfl, compares⟩

theorem lifted {α : Type} {x y : Id α} {f g : α → Finding Id}
    (next : Q.Bounds (f (Id.run x)) (g (Id.run y))) :
    Q.Bounds (OptionT.lift x >>= f) (OptionT.lift y >>= g) := by
  intro found reached
  rw [result?_bind, result?_lift, Option.bind_some] at reached
  rw [result?_bind, result?_lift, Option.bind_some]
  exact next found reached

theorem append (first : Q.Bounds x x') (next : Q.Bounds y y') :
    Q.Bounds (do let a ← x; let b ← y; return a ++ b) (do let a ← x'; let b ← y'; return a ++ b) := by
  intro found reached
  simp only [result?_bind, Option.bind_eq_some_iff] at reached
  obtain ⟨a, here, b, behind, joined⟩ := reached
  obtain rfl := Option.some.inj joined
  obtain ⟨a', here', compares⟩ := first a here
  obtain ⟨b', behind', compares'⟩ := next b behind
  refine ⟨a' ++ b', ?_, Q.append compares compares'⟩
  simp only [result?_bind, here', behind', Option.bind_some, result?_pure]

/-- What is wrong with a value itself comes before what is found behind it. -/
theorem behind {own own' : List Violation} (itself : Q.rel own own') (inside : Q.Bounds x x') :
    Q.Bounds (do let a ← x; return own ++ a) (do let a ← x'; return own' ++ a) :=
  (return_ itself).append inside

theorem under (inside : Q.Bounds x x') (location : Location) :
    Q.Bounds (do return (← x).map (·.under location)) (do return (← x').map (·.under location)) := by
  intro found reached
  simp only [result?_bind, Option.bind_eq_some_iff] at reached
  obtain ⟨a, here, seen⟩ := reached
  obtain rfl := Option.some.inj seen
  obtain ⟨a', here', compares⟩ := inside a here
  refine ⟨a'.map (·.under location), ?_, Q.under location compares⟩
  simp only [result?_bind, here', Option.bind_some, result?_pure]

theorem dropped (drops : Q.Drops) (x : Finding Id) : Q.Bounds x (return []) :=
  fun found _ => ⟨[], rfl, drops found⟩

/-- What is found first may be left out if it may be gone. -/
theorem skip (gone : ∀ a, result? y = some a → Q.rel a []) (next : Q.Bounds x x') :
    Q.Bounds (do let a ← y; let b ← x; return a ++ b) x' := by
  intro found reached
  simp only [result?_bind, Option.bind_eq_some_iff] at reached
  obtain ⟨a, here, b, behind, joined⟩ := reached
  obtain rfl := Option.some.inj joined
  obtain ⟨b', behind', compares⟩ := next b behind
  exact ⟨b', behind', Q.append (gone a here) compares⟩

theorem skipThere (nothing : result? y = some []) (next : Q.Bounds x x') :
    Q.Bounds x (do let a ← y; let b ← x'; return a ++ b) := by
  intro found reached
  obtain ⟨b', behind, compares⟩ := next found reached
  refine ⟨b', ?_, compares⟩
  simp only [result?_bind, nothing, behind, Option.bind_some, result?_pure, List.nil_append]

end Bounds

end Comparison

/-- The objects that a schema governs are looked into. -/
def Node.opens (n : Node) : Bool := n.type = some Kind.object.name && n.properties.isSome

/-- The schema of the elements of the arrays that a schema governs, if they are looked into. -/
def Node.elementSchema? (n : Node) : Option Node := if n.type = some Kind.array.name then n.items else none

/-- Properties side by side. Some may be gone where findings may, and those that say nothing may be on
either side alone. -/
inductive Entries (Q : Comparison) (R : Node → Node → Prop) :
    List (String × Node) → List (String × Node) → Prop
  | nil : Entries Q R [] []
  | kept {name : String} {p p' : Node} {rest rest' : List (String × Node)} :
      R p p' → Entries Q R rest rest' → Entries Q R ((name, p) :: rest) ((name, p') :: rest')
  | dropped {name : String} {p : Node} {rest rest' : List (String × Node)} :
      Q.Drops → Entries Q R rest rest' → Entries Q R ((name, p) :: rest) rest'
  | idle {name : String} {rest rest' : List (String × Node)} :
      Entries Q R rest rest' → Entries Q R ((name, .empty) :: rest) rest'
  | idleThere {name : String} {rest rest' : List (String × Node)} :
      Entries Q R rest rest' → Entries Q R rest ((name, .empty) :: rest')

/-- What two schemas find wrong with a value itself compares, and the schemas right inside them are side
by side. -/
structure Level (Q : Comparison) (R : Node → Node → Prop) (n n' : Node) : Prop where
  missing : ∀ members, Q.rel (missing members n.required) (missing members n'.required)
  member : ∀ location v, Q.rel (typeBreach location v n (v.isNull && n.nullable))
    (typeBreach location v n' (v.isNull && n'.nullable))
  element : ∀ location v, Q.rel (typeBreach location v n false) (typeBreach location v n' false)
  opens : n.opens = n'.opens ∨ n'.opens = false ∧ Q.Drops
  properties : Entries Q R (n.properties.getD []) (n'.properties.getD [])
  elements : Option.Rel R n.elementSchema? n'.elementSchema? ∨ n'.elementSchema? = none ∧ Q.Drops

/-- Schemas that ask for the same of a value itself differ at most in what lies inside them. -/
theorem Level.of_entries {Q : Comparison} {R : Node → Node → Prop} {n n' : Node} (type : n.type = n'.type)
    (required : n.required = n'.required) (nullable : n.nullable = n'.nullable)
    (listed : n.properties.isSome = n'.properties.isSome)
    (entries : Entries Q R (n.properties.getD []) (n'.properties.getD []))
    (items : Option.Rel R n.items n'.items) : Level Q R n n' where
  missing _ := required ▸ Q.self _
  member location v := by
    rw [typeBreach, typeBreach, type, nullable]
    exact Q.self _
  element location v := by
    rw [typeBreach, typeBreach, type]
    exact Q.self _
  opens := Or.inl (by rw [Node.opens, Node.opens, type, listed])
  properties := entries
  elements := by
    refine Or.inl ?_
    rw [Node.elementSchema?, Node.elementSchema?, type]
    split
    · exact items
    · exact .none

theorem rel_self {α : Type} {r : α → α → Prop} (reflexive : ∀ a, r a a) (x : Option α) :
    Option.Rel r x x := by
  cases x with
  | none => exact .none
  | some a => exact .some (reflexive a)

theorem rel_swap {α β : Type} {r : α → β → Prop} {x : Option α} {y : Option β}
    (related : Option.Rel r x y) : Option.Rel (fun b a => r a b) y x := by
  cases related with
  | none => exact .none
  | some inner => exact .some inner

theorem Entries.swap {R : Node → Node → Prop} {entries entries' : List (String × Node)}
    (same : Entries .equal R entries entries') : Entries .equal (fun n' n => R n n') entries' entries := by
  induction same with
  | nil => exact .nil
  | kept related _ ih => exact .kept related ih
  | dropped drops => exact absurd drops Comparison.not_equal_drops
  | idle _ ih => exact .idleThere ih
  | idleThere _ ih => exact .idle ih

theorem Level.swap {R : Node → Node → Prop} {n n' : Node} (level : Level .equal R n n') :
    Level .equal (fun n' n => R n n') n' n where
  missing members := (level.missing members).symm
  member location v := (level.member location v).symm
  element location v := (level.element location v).symm
  opens := Or.inl (level.opens.elim Eq.symm fun gone => absurd gone.2 Comparison.not_equal_drops)
  properties := level.properties.swap
  elements := Or.inl (level.elements.elim rel_swap fun gone => absurd gone.2 Comparison.not_equal_drops)

theorem insideObject_eq (descend : Descent Id) (location : Location) (members : List (String × Value))
    (n : Node) :
    insideObject descend location (.obj members) n =
      if n.opens then do return (← descend members n).map (·.under location) else return [] := by
  rfl

theorem insideArray_eq (references : Option (References Id)) (descend : Descent Id) (location : Location)
    (elements : List Value) (n : Node) :
    insideArray references descend location (.arr elements) n =
      match n.elementSchema? with
      | some items => do
        let resolved ← OptionT.lift (follow references items)
        checkElements descend location resolved 0 elements
      | none => return [] := by
  unfold insideArray Node.elementSchema?
  by_cases typed : n.type = some Kind.array.name
  · simp only [if_pos typed]
    cases n.items <;> rfl
  · simp only [if_neg typed]
    cases n.items <;> rfl

section

variable {Q : Comparison} {R : Node → Node → Prop} {descend descend' : Descent Id}
  (carries : ∀ members n n', Level Q R n n' → Q.Bounds (descend members n) (descend' members n'))
include carries

theorem insideObject_bounds (location : Location) (v : Value) {n n' : Node} (level : Level Q R n n') :
    Q.Bounds (insideObject descend location v n) (insideObject descend' location v n') := by
  cases v with
  | obj members =>
    rw [insideObject_eq, insideObject_eq]
    rcases level.opens with same | ⟨closed, drops⟩
    · rw [same]
      split
      · exact (carries members n n' level).under location
      · exact .return_ (Q.self [])
    · rw [closed]
      exact .dropped drops _
  | _ => exact .return_ (Q.self [])

theorem checkElements_bounds (outer : Location) (index : Nat) (elements : List Value) {n n' : Node}
    (level : Level Q R n n') :
    Q.Bounds (checkElements descend outer n index elements)
      (checkElements descend' outer n' index elements) := by
  induction elements generalizing index with
  | nil => exact .return_ (Q.self [])
  | cons v rest ih =>
    have inside := insideObject_bounds carries (outer ++ [.index index]) v level
    have here : Q.Bounds (checkElement descend (outer ++ [.index index]) n v)
        (checkElement descend' (outer ++ [.index index]) n' v) := .behind (level.element _ v) inside
    exact here.append (ih (index + 1))

variable {references references' : Option (References Id)}
  (meets : ∀ n n', R n n' → Level Q R (Id.run (follow references n)) (Id.run (follow references' n')))
include meets

theorem insideArray_bounds (location : Location) (v : Value) {n n' : Node} (level : Level Q R n n') :
    Q.Bounds (insideArray references descend location v n)
      (insideArray references' descend' location v n') := by
  cases v with
  | arr elements =>
    rw [insideArray_eq, insideArray_eq]
    rcases level.elements with same | ⟨closed, drops⟩
    · revert same
      generalize n.elementSchema? = items
      generalize n'.elementSchema? = items'
      rintro (inner | _)
      · exact .lifted (checkElements_bounds carries location 0 elements (meets _ _ inner))
      · exact .return_ (Q.self [])
    · rw [closed]
      exact .dropped drops _
  | _ => exact .return_ (Q.self [])

end

/-- A schema that says nothing finds nothing wrong with a member. -/
theorem checkMember_idle (references : Option (References Id)) (descend : Nat → Descent Id) (name : String)
    (v : Value) :
    result? (checkMember (steady references) descend name (Id.run (follow references .empty)) v) =
      some [] := by
  rw [follow_of_no_ref rfl]
  cases v <;> rfl

section

variable {Q : Comparison} {R : Node → Node → Prop} {descend descend' : Nat → Descent Id}
  (carries : ∀ taken members n n', Level Q R n n' →
    Q.Bounds (descend taken members n) (descend' taken members n'))
  {references references' : Option (References Id)}
  (meets : ∀ n n', R n n' → Level Q R (Id.run (follow references n)) (Id.run (follow references' n')))
include carries meets

theorem checkMember_bounds (name : String) (v : Value) {n n' : Node} (level : Level Q R n n') :
    Q.Bounds (checkMember (steady references) descend name n v)
      (checkMember (steady references') descend' name n' v) := by
  have objects := insideObject_bounds (carries 1) [.name name] v level
  have elements := insideArray_bounds (carries 2) meets [.name name] v level
  have both := (objects.append elements).behind (level.member [.name name] v)
  simpa only [checkMember, bind_assoc, pure_bind, List.append_assoc] using both

theorem checkMembers_bounds (members : List (String × Value))
    {properties properties' : List (String × Node)} (entries : Entries Q R properties properties') :
    Q.Bounds (checkMembers (steady references) descend members properties)
      (checkMembers (steady references') descend' members properties') := by
  induction entries with
  | nil => exact .return_ (Q.self [])
  | @kept name p p' rest rest' related _ ih =>
    unfold checkMembers
    cases lookup? name members with
    | none => exact ih
    | some v =>
      exact .lifted ((checkMember_bounds carries meets name v (meets p p' related)).append ih)
  | @dropped name p rest rest' drops _ ih =>
    rw [checkMembers]
    cases lookup? name members with
    | none => exact ih
    | some v => exact .skip (fun found _ => drops found) ih
  | @idle name rest rest' _ ih =>
    rw [checkMembers]
    cases lookup? name members with
    | none => exact ih
    | some v =>
      refine .skip (fun found reached => ?_) ih
      obtain rfl := Option.some.inj (reached.symm.trans (checkMember_idle references descend name v))
      exact Q.self []
  | @idleThere name rest rest' _ ih =>
    rw [checkMembers.eq_2]
    cases lookup? name members with
    | none => exact ih
    | some v => exact .skipThere (checkMember_idle references' descend' name v) ih

end

section

variable {Q : Comparison} {R : Node → Node → Prop} {references references' : Option (References Id)}
  (meets : ∀ n n', R n n' → Level Q R (Id.run (follow references n)) (Id.run (follow references' n')))
include meets

/-- The induction is on the room: a schema may refer to itself. -/
theorem checkObject_bounds {room room' : Nat} (larger : room ≤ room') (taken : Nat)
    (members : List (String × Value)) {n n' : Node} (level : Level Q R n n') :
    Q.Bounds (checkObject (steady references) room taken members n)
      (checkObject (steady references') room' taken members n') := by
  induction room generalizing room' taken members n n' with
  | zero => exact fun _ cutOff => nomatch cutOff
  | succ room ih =>
    obtain ⟨r, rfl⟩ := Nat.exists_eq_add_one.mpr (Nat.zero_lt_of_lt larger)
    have inner : room ≤ r := Nat.le_of_succ_le_succ larger
    cases taken with
    | succ taken => exact ih inner taken members level
    | zero =>
      have inside := checkMembers_bounds (fun taken members n n' level => ih inner taken members level)
        meets members level.properties
      exact inside.behind (level.missing members)

theorem violations_bounds {room room' : Nat} (larger : room ≤ room') (v : Value) {n n' : Node}
    (related : R n n') :
    Q.Bounds (violations (steady references) room v n) (violations (steady references') room' v n') := by
  refine .lifted ?_
  cases v with
  | obj members => exact checkObject_bounds meets larger 0 members (meets n n' related)
  | _ =>
    exact insideArray_bounds (fun members _ _ => checkObject_bounds meets larger 1 members) meets [] _
      (meets n n' related)

end

end PayloadCheck.Schema
