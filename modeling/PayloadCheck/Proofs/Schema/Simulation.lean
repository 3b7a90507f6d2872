import PayloadCheck.Outcome
import PayloadCheck.Proofs.Schema.CheckedLocation

namespace PayloadCheck.Schema

open Json

/-- What a check without effects finds, or none where objects nest too deep. -/
def result? {α : Type} (x : OptionT Id α) : Option α := Id.run x.run

@[simp] theorem result?_pure {α : Type} (a : α) : result? (pure a) = some a := rfl

@[simp] theorem result?_bind {α β : Type} (x : OptionT Id α) (f : α → OptionT Id β) :
    result? (x >>= f) = (result? x).bind fun a => result? (f a) := by
  simp only [result?, OptionT.run_bind]
  cases x.run <;> rfl

@[simp] theorem result?_lift {α : Type} (x : Id α) :
    result? (OptionT.lift x) = some (Id.run x) := rfl

theorem lift_bind {α β : Type} (x : Id α) (f : α → OptionT Id β) :
    OptionT.lift x >>= f = f (Id.run x) := rfl

/-- Computations of two kinds that give the same answers: those that only return a value do, and a step
after another does. -/
structure Simulation (m n : Type → Type) [Monad m] [Monad n] where
  answers : {α : Type} → m α → n α → Prop
  return_answers : ∀ {α : Type} (a : α), answers (pure a) (pure a)
  then_answers : ∀ {α β : Type} {x : m α} {y : n α} {f : α → m β} {g : α → n β},
    answers x y → (∀ a, answers (f a) (g a)) → answers (x >>= f) (y >>= g)

section

variable {m n : Type → Type} [Monad m] [Monad n]

/-- References that answer as others do. -/
inductive Simulation.Mirrors (S : Simulation m n) : Option (References m) → Option (References n) → Prop
  | none : Mirrors S none none
  | some {lookup : String → m (Option Node)} {lookup' : String → n (Option Node)} {size : Nat} :
      (∀ ref, S.answers (lookup ref) (lookup' ref)) → Mirrors S (some ⟨lookup, size⟩) (some ⟨lookup', size⟩)

namespace Simulation

/-- References answer as others do wherever a check looks them up that goes down so many calls. -/
def MirrorsDown (S : Simulation m n) (references : Nat → Option (References m))
    (references' : Nat → Option (References n)) (room depth : Nat) : Prop :=
  ∀ k ≤ room, room ≤ k + depth → S.Mirrors (references k) (references' k)

/-- What a check finds is what another one finds. -/
def Finds (S : Simulation m n) {α : Type} (x : OptionT m α) (y : OptionT n α) : Prop :=
  S.answers x.run y.run

/-- An object is checked as it is in the other way. -/
def DescendsAlike (S : Simulation m n) (descend : Descent m) (descend' : Descent n) (v : Value) : Prop :=
  ∀ members node, v = .obj members → S.Finds (descend members node) (descend' members node)

variable (S : Simulation m n)

theorem finds_pure {α : Type} (a : α) : S.Finds (pure a) (pure a) := S.return_answers (some a)

theorem finds_failure {α : Type} : S.Finds (failure : OptionT m α) failure := S.return_answers none

variable {S}

theorem finds_bind {α β : Type} {x : OptionT m α} {y : OptionT n α} {f : α → OptionT m β}
    {g : α → OptionT n β} (first : S.Finds x y) (next : ∀ a, S.Finds (f a) (g a)) :
    S.Finds (x >>= f) (y >>= g) := by
  unfold Finds
  rw [OptionT.run_bind, OptionT.run_bind]
  refine S.then_answers first fun found => ?_
  cases found with
  | none => exact S.return_answers none
  | some a => exact next a

theorem finds_lift {α : Type} {x : m α} {y : n α} (answers : S.answers x y) :
    S.Finds (OptionT.lift x) (OptionT.lift y) := by
  unfold Finds
  rw [OptionT.run_lift, OptionT.run_lift]
  exact S.then_answers answers fun a => S.return_answers (some a)

theorem followFrom_answers {lookup : String → m (Option Node)} {lookup' : String → n (Option Node)}
    (same : ∀ ref, S.answers (lookup ref) (lookup' ref)) (count : Nat) (followed : List String)
    (node : Node) : S.answers (followFrom lookup count followed node) (followFrom lookup' count followed node) := by
  induction count generalizing followed node with
  | zero => exact S.return_answers node
  | succ count ih =>
    rw [followFrom, followFrom]
    cases node.ref with
    | none => exact S.return_answers node
    | some ref =>
      by_cases known : followed.contains ref = true
      · simp only [known, if_true]
        exact S.return_answers node
      · simp only [known]
        refine S.then_answers (same ref) fun found => ?_
        cases found with
        | none => exact S.return_answers node
        | some target => exact ih (ref :: followed) target

theorem follow_answers {references : Option (References m)} {references' : Option (References n)}
    (mirrors : S.Mirrors references references') (node : Node) :
    S.answers (follow references node) (follow references' node) := by
  cases mirrors with
  | none => exact S.return_answers node
  | some same => exact followFrom_answers same _ [] node

section Descent

variable {descend : Descent m} {descend' : Descent n}

theorem insideObject_finds {v : Value} (alike : S.DescendsAlike descend descend' v) (location : Location)
    (node : Node) :
    S.Finds (insideObject descend location v node) (insideObject descend' location v node) := by
  cases v with
  | obj members =>
    unfold insideObject
    by_cases opens : (node.type = some Kind.object.name && node.properties.isSome) = true
    · simp only [opens, if_true]
      exact finds_bind (alike members node rfl) fun _ => S.finds_pure _
    · simp only [opens]
      exact S.finds_pure []
  | _ => exact S.finds_pure []

theorem checkElement_finds {v : Value} (alike : S.DescendsAlike descend descend' v)
    (location : Location) (node : Node) :
    S.Finds (checkElement descend location node v) (checkElement descend' location node v) :=
  finds_bind (insideObject_finds alike location node) fun _ => S.finds_pure _

theorem checkElements_finds {elements : List Value}
    (alike : ∀ v ∈ elements, S.DescendsAlike descend descend' v) (outer : Location) (node : Node)
    (index : Nat) :
    S.Finds (checkElements descend outer node index elements)
      (checkElements descend' outer node index elements) := by
  induction elements generalizing index with
  | nil => exact S.finds_pure []
  | cons v rest ih =>
    obtain ⟨first, others⟩ := List.forall_mem_cons.mp alike
    refine finds_bind (checkElement_finds first _ node) fun here => ?_
    exact finds_bind (ih others (index + 1)) fun behind => S.finds_pure (here ++ behind)

theorem insideArray_finds {references : Option (References m)} {references' : Option (References n)}
    {v : Value} (mirrors : ∀ elements, v = .arr elements → S.Mirrors references references')
    (alike : ∀ w ∈ v.children, S.DescendsAlike descend descend' w) (location : Location)
    (node : Node) :
    S.Finds (insideArray references descend location v node)
      (insideArray references' descend' location v node) := by
  cases v with
  | arr elements =>
    unfold insideArray
    cases node.items with
    | none => exact S.finds_pure []
    | some items =>
      by_cases typed : node.type = some Kind.array.name
      · simp only [typed, if_true]
        refine finds_bind (finds_lift (follow_answers (mirrors _ rfl) items)) fun resolved => ?_
        exact checkElements_finds alike location resolved 0
      · simp only [typed, if_false]
        exact S.finds_pure []
  | _ =>
    unfold insideArray
    exact S.finds_pure []

end Descent

section Members

variable {references : Nat → Option (References m)} {references' : Nat → Option (References n)}
  {descend : Nat → Descent m} {descend' : Nat → Descent n}

/-- What the check of a member needs to go the same way in both. -/
structure MemberAlike (S : Simulation m n) (references : Nat → Option (References m))
    (references' : Nat → Option (References n)) (descend : Nat → Descent m)
    (descend' : Nat → Descent n) (v : Value) : Prop where
  object : S.DescendsAlike (descend 1) (descend' 1) v
  items : ∀ elements, v = .arr elements → S.Mirrors (references 2) (references' 2)
  elements : ∀ w ∈ v.children, S.DescendsAlike (descend 2) (descend' 2) w

theorem checkMember_finds {v : Value} (alike : S.MemberAlike references references' descend descend' v)
    (name : String) (node : Node) :
    S.Finds (checkMember references descend name node v)
      (checkMember references' descend' name node v) := by
  refine finds_bind (insideObject_finds alike.object _ node) fun objects => ?_
  refine finds_bind (insideArray_finds alike.items alike.elements _ node) fun elements => ?_
  exact S.finds_pure _

theorem checkMembers_finds (mirrors : S.Mirrors (references 0) (references' 0))
    {members : List (String × Value)}
    (alike : ∀ name v, lookup? name members = some v →
      S.MemberAlike references references' descend descend' v)
    (properties : List (String × Node)) :
    S.Finds (checkMembers references descend members properties)
      (checkMembers references' descend' members properties) := by
  induction properties with
  | nil => exact S.finds_pure []
  | cons property rest ih =>
    obtain ⟨name, node⟩ := property
    unfold checkMembers
    cases found : lookup? name members with
    | none => exact ih
    | some v =>
      refine finds_bind (finds_lift (follow_answers mirrors node)) fun resolved => ?_
      refine finds_bind (checkMember_finds (alike name v found) name resolved) fun first => ?_
      exact finds_bind ih fun others => S.finds_pure (first ++ others)

end Members

section Checks

variable {references : Nat → Option (References m)} {references' : Nat → Option (References n)}

/-- The induction is on the room; a check that goes down fewer calls looks references up in fewer
places. -/
theorem checkObject_finds {room taken : Nat} {members : List (String × Value)}
    (mirrors : S.MirrorsDown references references' room (taken + (Value.obj members).callDepth))
    (node : Node) :
    S.Finds (checkObject references room taken members node)
      (checkObject references' room taken members node) := by
  induction room generalizing taken members node with
  | zero => exact S.finds_failure
  | succ room ih =>
    cases taken with
    | succ taken => exact ih (fun k within near => mirrors k (by omega) (by omega)) node
    | zero =>
      rw [checkObject, checkObject]
      refine finds_bind (checkMembers_finds ?_ (fun name v found => ?_) _) fun inside => S.finds_pure _
      · exact mirrors _ (by omega) (by simp only [Value.callDepth]; omega)
      · have deep := Value.callDepth_lt_members found
        simp only [Value.callDepth] at mirrors
        refine ⟨?_, ?_, ?_⟩
        · rintro inner node rfl
          exact ih (fun k within near => mirrors k (by omega) (by omega)) node
        · rintro elements rfl
          simp only [Value.callDepth] at deep
          exact mirrors _ (by omega) (by omega)
        · rintro w inside inner node rfl
          have deeper := Value.callDepth_lt_children inside
          exact ih (fun k within near => mirrors k (by omega) (by omega)) node

theorem violations_finds {room : Nat} {v : Value}
    (mirrors : S.MirrorsDown references references' room v.callDepth) (node : Node) :
    S.Finds (violations references room v node) (violations references' room v node) := by
  have root : S.Mirrors (references room) (references' room) :=
    mirrors room (Nat.le_refl _) (Nat.le_add_right _ _)
  refine finds_bind (finds_lift (follow_answers root node)) fun resolved => ?_
  cases v with
  | obj members =>
    exact checkObject_finds (fun k within near => mirrors k within (by omega)) resolved
  | arr elements =>
    refine insideArray_finds (fun _ _ => ?_) (fun w inside inner node same => ?_) [] resolved
    · exact mirrors _ (Nat.sub_le _ _) (by simp only [Value.callDepth]; omega)
    · subst same
      have deeper := Value.callDepth_lt_children inside
      exact checkObject_finds (fun k within near => mirrors k within (by omega)) node
  | _ =>
    refine insideArray_finds (fun _ same => ?_) (fun _ inside => ?_) [] resolved
    · cases same
    · exact absurd inside List.not_mem_nil

variable [LawfulMonad m] [LawfulMonad n]

theorem check_answers {room : Nat} {v : Value}
    (mirrors : S.MirrorsDown references references' room v.callDepth) (node : Node) :
    S.answers (check references room v node) (check references' room v node) := by
  unfold check
  rw [map_eq_pure_bind, map_eq_pure_bind]
  exact S.then_answers (violations_finds mirrors node) fun found => S.return_answers _

theorem target_answers {room : Nat} {v : Value}
    (mirrors : S.MirrorsDown references references' room v.callDepth) (target : Target) :
    S.answers (target.check references room v) (target.check references' room v) := by
  cases target with
  | node n => exact check_answers mirrors n
  | raw schema =>
    simp only [Target.check, checkRaw]
    cases Node.read? room schema with
    | none => exact S.return_answers _
    | some read =>
      cases read with
      | none => exact S.return_answers _
      | some node => exact check_answers mirrors node

/-- A text gets the same outcome where the same schema is found for it. -/
theorem checkText_answers {room : Nat} {text : List Char} {target : m (Option Target)}
    {target' : n (Option Target)} (found : S.answers target target')
    (mirrors : S.MirrorsDown references references' room (Json.parse text).2.callDepth) :
    S.answers (checkText text target references room) (checkText text target' references' room) := by
  unfold checkText
  split
  · exact S.return_answers _
  · rename_i v parsed
    rw [parsed] at mirrors
    by_cases blank : Text.allBlank text = true
    · simp only [blank, if_true]
      exact S.return_answers _
    · simp only [blank]
      refine S.then_answers found fun target => ?_
      cases target with
      | none => exact S.return_answers _
      | some target =>
        exact S.then_answers (target_answers mirrors target) fun errors => S.return_answers _

end Checks

end Simulation

end

end PayloadCheck.Schema
