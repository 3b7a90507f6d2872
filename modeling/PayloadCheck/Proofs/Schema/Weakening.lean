import PayloadCheck.Proofs.Schema.Following
import PayloadCheck.Proofs.Schema.Nested

namespace PayloadCheck.Schema

open Json

/-- A schema asks for less after one change, made in it or in a schema inside it. References stay. -/
inductive Weakening : Node → Node → Prop
  | required {n : Node} {names : List String} :
      names.Sublist n.required → Weakening n { n with required := names }
  | entries {n : Node} {properties kept : List (String × Node)} :
      n.properties = some properties → kept.Sublist properties →
      Weakening n { n with properties := some kept }
  | properties (n : Node) : Weakening n { n with properties := none }
  | items (n : Node) : Weakening n { n with items := none }
  | type (n : Node) : Weakening n { n with type := none }
  | nullable (n : Node) : Weakening n { n with nullable := true }
  | inProperty {n p p' : Node} {before after : List (String × Node)} {name : String} :
      n.properties = some (before ++ (name, p) :: after) → Weakening p p' →
      Weakening n { n with properties := some (before ++ (name, p') :: after) }
  | inItems {n inner inner' : Node} :
      n.items = some inner → Weakening inner inner' → Weakening n { n with items := some inner' }

theorem typeBreach_weaker {n n' : Node} (type : n'.type = n.type ∨ n'.type = none) (location : Location)
    (v : Value) {excused excused' : Bool} (more : excused = true → excused' = true) :
    (typeBreach location v n' excused').Sublist (typeBreach location v n excused) := by
  rcases type with same | gone
  · rw [typeBreach, typeBreach, same]
    cases n.type with
    | none => exact .refl _
    | some declared =>
      dsimp only
      by_cases fine : (hasType v declared || excused) = true
      · have fine' : (hasType v declared || excused') = true := by
          rw [Bool.or_eq_true] at fine ⊢
          exact fine.imp_right more
        rw [if_pos fine, if_pos fine']
      · rw [if_neg fine]
        split
        · exact List.nil_sublist _
        · exact .refl _
  · rw [typeBreach, gone]
    exact List.nil_sublist _

theorem level_of_weaker {R : Node → Node → Prop} {n n' : Node}
    (type : n'.type = n.type ∨ n'.type = none) (required : n'.required.Sublist n.required)
    (nullable : n.nullable = true → n'.nullable = true)
    (listed : n'.properties.isSome = true → n.properties.isSome = true)
    (properties : Entries .fewer R (n.properties.getD []) (n'.properties.getD []))
    (items : n'.items = none ∨ Option.Rel R n.items n'.items) : Level .fewer R n n' where
  missing _ := (required.filter _).map _
  member location v := by
    refine typeBreach_weaker type location v fun excused => ?_
    rw [Bool.and_eq_true] at excused ⊢
    exact excused.imp_right nullable
  element location v := typeBreach_weaker type location v id
  opens := by
    rcases type with same | gone
    · cases open' : n'.properties.isSome with
      | false => exact Or.inr ⟨by rw [Node.opens, open', Bool.and_false], Comparison.fewer_drops⟩
      | true => exact Or.inl (by rw [Node.opens, Node.opens, same, open', listed open'])
    · exact Or.inr ⟨by simp [Node.opens, gone], Comparison.fewer_drops⟩
  properties := properties
  elements := by
    rcases type with same | gone
    · rcases items with none | inner
      · exact Or.inr ⟨by rw [Node.elementSchema?, none, ite_self], Comparison.fewer_drops⟩
      · refine Or.inl ?_
        rw [Node.elementSchema?, Node.elementSchema?, same]
        split
        · exact inner
        · exact .none
    · exact Or.inr ⟨by simp [Node.elementSchema?, gone], Comparison.fewer_drops⟩

theorem entries_of_sublist {R : Node → Node → Prop} (reflexive : ∀ n, R n n)
    {properties kept : List (String × Node)} (fewer : kept.Sublist properties) :
    Entries .fewer R properties kept := by
  induction fewer with
  | slnil => exact .nil
  | cons _ _ ih => exact .dropped Comparison.fewer_drops ih
  | cons_cons _ _ ih => exact .kept (reflexive _) ih

theorem entries_self {Q : Comparison} {R : Node → Node → Prop} (reflexive : ∀ n, R n n)
    (properties : List (String × Node)) : Entries Q R properties properties :=
  .of_paired (List.forall₂_same.mpr fun _ _ => ⟨rfl, reflexive _⟩)

theorem entries_inside {Q : Comparison} {R : Node → Node → Prop} (reflexive : ∀ n, R n n) {p p' : Node}
    (related : R p p') (name : String) (before after : List (String × Node)) :
    Entries Q R (before ++ (name, p) :: after) (before ++ (name, p') :: after) := by
  induction before with
  | nil => exact .kept related (entries_self reflexive after)
  | cons _ _ ih => exact .kept (reflexive _) ih

theorem Weakening.ref_eq {n n' : Node} (weakening : Weakening n n') : n.ref = n'.ref := by
  cases weakening <;> rfl

theorem Weakening.level {n n' : Node} (weakening : Weakening n n') :
    Level .fewer (Relation.ReflGen Weakening) n n' := by
  have same (n : Node) : Relation.ReflGen Weakening n n := .refl
  have listed := entries_self (Q := .fewer) same (n.properties.getD [])
  have inside := Or.inr (a := n.items = none) (rel_self same n.items)
  cases weakening with
  | required fewer => exact level_of_weaker (Or.inl rfl) fewer id id listed inside
  | entries given fewer =>
    refine level_of_weaker (Or.inl rfl) (.refl _) id (fun _ => by rw [given]; rfl) ?_ inside
    rw [given]
    exact entries_of_sublist same fewer
  | properties =>
    refine level_of_weaker (Or.inl rfl) (.refl _) id nofun ?_ inside
    exact entries_of_sublist same (List.nil_sublist _)
  | items => exact level_of_weaker (Or.inl rfl) (.refl _) id id listed (Or.inl rfl)
  | type => exact level_of_weaker (Or.inr rfl) (.refl _) id id listed inside
  | nullable => exact level_of_weaker (Or.inl rfl) (.refl _) (fun _ => rfl) id listed inside
  | @inProperty _ _ _ before after name given inner =>
    refine level_of_weaker (Or.inl rfl) (.refl _) id (fun _ => by rw [given]; rfl) ?_ inside
    rw [given]
    exact entries_inside same (.single inner) name before after
  | inItems given inner =>
    refine level_of_weaker (Or.inl rfl) (.refl _) id id listed (Or.inr ?_)
    rw [given]
    exact .some (.single inner)

theorem violations_weakened (references : Option (References Id)) (room : Nat) (data : Value)
    {schema weaker : Node} (weakened : Relation.ReflTransGen Weakening schema weaker) :
    Comparison.fewer.Bounds (violations (steady references) room data schema)
      (violations (steady references) room data weaker) := by
  induction weakened with
  | refl => exact fun found reached => ⟨found, reached, .refl found⟩
  | @tail middle weaker _ change ih =>
    have level (n n' : Node) (related : Relation.ReflGen Weakening n n') :
        n.ref = n'.ref ∧ Level .fewer (Relation.ReflGen Weakening) n n' := by
      rcases related with _ | weakening
      · exact ⟨rfl, (SameLevel.self (fun _ => .refl) n).level _⟩
      · exact ⟨weakening.ref_eq, weakening.level⟩
    have once : Comparison.fewer.Bounds (violations (steady references) room data middle)
        (violations (steady references) room data weaker) :=
      violations_bounds (meets_of_ref references (fun _ => .refl) level) (Nat.le_refl _) data
        (.single change)
    intro found reached
    obtain ⟨some, reached', left⟩ := ih found reached
    obtain ⟨fewer, reached'', left'⟩ := once some reached'
    exact ⟨fewer, reached'', left'.trans left⟩

section

variable (references : Option (References Id)) (room : Nat) (data : Value)

/-- What is reported on a payload against a schema. -/
def reported (schema : Node) : List SchemaError := Id.run (check (steady references) room data schema)

/-- A schema that asks for less never adds errors: what is reported against it is reported in the same
order against the stronger schema too, exactly unless the check against the stronger schema is cut off
and the other neither is nor finds everything in order. A payload that is in order stays so, and no
check is cut off where there is room for the calls that the payload asks for. -/
theorem weakening_sublist_iff {schema weaker : Node}
    (weakened : Relation.ReflTransGen Weakening schema weaker) :
    ((reported references room data weaker).Sublist (reported references room data schema) ↔
      (reported references room data schema = [tooDeep] →
        reported references room data weaker = [] ∨ reported references room data weaker = [tooDeep])) ∧
    (reported references room data schema = [] → reported references room data weaker = []) ∧
    (data.callDepth ≤ room → reported references room data schema ≠ [tooDeep]) := by
  have bounds := violations_weakened references room data weakened
  have ends (n : Node) :
      reported references room data n = reports (result? (violations (steady references) room data n)) :=
    rfl
  have kept (whole : reported references room data schema ≠ [tooDeep]) :
      (reported references room data weaker).Sublist (reported references room data schema) := by
    cases reached : result? (violations (steady references) room data schema) with
    | none => exact absurd (congrArg reports reached) whole
    | some found =>
      obtain ⟨left, reached', fewer⟩ := bounds found reached
      rw [ends, ends, reached, reached']
      exact fewer.map _
  refine ⟨⟨fun fewer cut => ?_, fun cut => ?_⟩, fun clean => ?_, fun shallow => ?_⟩
  · rw [cut] at fewer
    exact List.sublist_singleton.mp fewer
  · by_cases whole : reported references room data schema = [tooDeep]
    · rw [whole]
      exact List.sublist_singleton.mpr (cut whole)
    · exact kept whole
  · have fewer := kept fun cut => nomatch clean.symm.trans cut
    rw [clean] at fewer
    exact List.sublist_nil.mp fewer
  · obtain ⟨found, reached⟩ := violations_found references shallow schema
    rw [ends, reached]
    exact reports_ne_tooDeep found

end

/-- The schema of a planted tree, which has to have a number. -/
def planted (required : List String) (kind : Node) : Node :=
  { Node.empty with
    required := required
    properties := some [("kind", kind), ("tree", Node.described treeReference)] }

def kindNode : Node := { Node.empty with type := some "string" }

def plantedPayload : Value := .obj [("kind", .null), ("tree", treePayload)]

/-- The number is not asked for any more, and the kind may be null; what is wrong in the tree stays. -/
theorem weakening_sublist_iff_planted :
    Relation.ReflTransGen Weakening (planted ["number"] kindNode)
        (planted [] { kindNode with nullable := true }) ∧
      plantedPayload.callDepth ≤ standardRoom ∧
      (reported treeReferences standardRoom plantedPayload
          (planted [] { kindNode with nullable := true })).Sublist
        (reported treeReferences standardRoom plantedPayload (planted ["number"] kindNode)) ∧
      (reported treeReferences standardRoom plantedPayload
          (planted [] { kindNode with nullable := true })).length = 3 ∧
      (reported treeReferences standardRoom plantedPayload (planted ["number"] kindNode)).length = 5 := by
  have fewer : Weakening (planted ["number"] kindNode) (planted [] kindNode) :=
    .required (List.nil_sublist _)
  have excused : Weakening (planted [] kindNode) (planted [] { kindNode with nullable := true }) :=
    @Weakening.inProperty (planted [] kindNode) _ _ [] _ "kind" rfl (.nullable kindNode)
  have weakened := (Relation.ReflTransGen.single fewer).tail excused
  have shallow : plantedPayload.callDepth ≤ standardRoom := by decide
  obtain ⟨iff, _, whole⟩ :=
    weakening_sublist_iff treeReferences standardRoom plantedPayload weakened
  exact ⟨weakened, shallow, iff.mpr fun cut => absurd cut (whole shallow), by decide, by decide⟩

def linkReference : Value := .obj [("$ref", .str "#/definitions/Link")]

/-- A document in which links refer to further links. -/
def linkDocument : Value :=
  .obj [("definitions", .obj [("Link", .obj [("type", .str "object"),
    ("properties", .obj [("next", linkReference)])])])]

/-- A chain of so many links. -/
def links : Nat → Value
  | 0 => .obj []
  | n + 1 => .obj [("next", links n)]

/-- The references of the document about links. -/
def linkReferences : Option (References Id) := some (Spec.references standardRoom linkDocument)

/-- The schema of the first link of a chain, which has to have a name. -/
def namedLink : Node :=
  { Node.empty with required := ["name"], properties := some [("next", Node.described linkReference)] }

/-- Where many links are not looked into any more, the name that the first one lacks is reported, and not
that there are too many. -/
theorem weakening_uncovers :
    Relation.ReflTransGen Weakening namedLink { namedLink with properties := none } ∧
      reported linkReferences standardRoom (links 900) namedLink = [tooDeep] ∧
      reported linkReferences standardRoom (links 900) { namedLink with properties := none } =
        [⟨"name", "Required field \"name\" is missing"⟩] ∧
      ¬ (reported linkReferences standardRoom (links 900) { namedLink with properties := none }).Sublist
        (reported linkReferences standardRoom (links 900) namedLink) := by
  have cut : reported linkReferences standardRoom (links 900) namedLink = [tooDeep] := by
    decide +kernel
  have lacks : reported linkReferences standardRoom (links 900) { namedLink with properties := none } =
      [⟨"name", "Required field \"name\" is missing"⟩] := by
    decide +kernel
  refine ⟨.single (.properties namedLink), cut, lacks, ?_⟩
  rw [cut, lacks]
  decide

end PayloadCheck.Schema
