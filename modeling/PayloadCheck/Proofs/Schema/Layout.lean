import Mathlib.Logic.Relation
import PayloadCheck.Proofs.Schema.Report
import PayloadCheck.Proofs.Schema.Resemblance

namespace PayloadCheck.Schema

open Json

/-- The schemas that can be met from a schema on, through properties, items and references. -/
inductive Reachable (references : Option (References Id)) (root : Node) : Node → Prop
  | root : Reachable references root root
  | property {n p : Node} {name : String} {properties : List (String × Node)} :
      Reachable references root n → n.properties = some properties → (name, p) ∈ properties →
      Reachable references root p
  | items {n inner : Node} :
      Reachable references root n → n.items = some inner → Reachable references root inner
  | named {n target : Node} {ref : String} {table : References Id} :
      Reachable references root n → n.ref = some ref → references = some table →
      table.lookup ref = some target → Reachable references root target

/-- A schema that can be met requires a name, or has a property of that name. -/
def Mentioned (references : Option (References Id)) (root : Node) (name : String) : Prop :=
  ∃ n, Reachable references root n ∧ (name ∈ n.required ∨ ∃ p, (name, p) ∈ n.properties.getD [])

/-- One change of layout somewhere in a payload: the members of an object, each of which has a name of its
own, are put in another order, or a member that is not mentioned is deleted. -/
inductive Relaid (mentioned : String → Prop) : Value → Value → Prop
  | permuted {members members' : List (String × Value)} :
      (members.map (·.1)).Nodup → members.Perm members' → Relaid mentioned (.obj members) (.obj members')
  | deleted {before after : List (String × Value)} {name : String} {v : Value} :
      ¬ mentioned name → Relaid mentioned (.obj (before ++ (name, v) :: after)) (.obj (before ++ after))
  | inMember {before after : List (String × Value)} {name : String} {v v' : Value} :
      Relaid mentioned v v' →
      Relaid mentioned (.obj (before ++ (name, v) :: after)) (.obj (before ++ (name, v') :: after))
  | inElement {before after : List Value} {v v' : Value} :
      Relaid mentioned v v' →
      Relaid mentioned (.arr (before ++ v :: after)) (.arr (before ++ v' :: after))

theorem lookup?_perm {α : Type} {entries entries' : List (String × α)}
    (once : (entries.map (·.1)).Nodup) (same : entries.Perm entries') (name : String) :
    lookup? name entries = lookup? name entries' := by
  have once' : (entries'.map (·.1)).Nodup := (same.map _).nodup_iff.mp once
  cases found : lookup? name entries with
  | some v => exact (lookup?_of_mem once' (same.mem_iff.mp (mem_of_lookup? found))).symm
  | none =>
    have absent := lookup?_eq_none.mp found
    exact (lookup?_eq_none.mpr fun entry among => absent entry (same.mem_iff.mpr among)).symm

section

variable {mentioned : String → Prop}

/-- The members of two objects look the same to a check, but for the layout of their values. -/
def SeenAlike (mentioned : String → Prop) (members members' : List (String × Value)) : Prop :=
  ∀ name, mentioned name →
    Option.Rel (Relation.ReflGen (Relaid mentioned)) (lookup? name members) (lookup? name members')

theorem seenAlike_of_eq {members members' : List (String × Value)}
    (same : ∀ name, mentioned name → lookup? name members = lookup? name members') :
    SeenAlike mentioned members members' := by
  intro name asked
  rw [same name asked]
  exact rel_self (fun _ => .refl) _

theorem seenAlike_of_member {v v' : Value} (relaid : Relaid mentioned v v') (name : String)
    (before after : List (String × Value)) :
    SeenAlike mentioned (before ++ (name, v) :: after) (before ++ (name, v') :: after) := by
  intro asked _
  simp only [lookup?_append, lookup?]
  by_cases same : name = asked
  · simp only [if_pos same]
    cases lookup? asked before with
    | none => exact .some (.single relaid)
    | some w => exact .some .refl
  · simp only [if_neg same]
    exact rel_self (fun _ => .refl) _

/-- An object stays an object that looks the same, and an array an array; nothing else changes. -/
theorem Relaid.cases {v v' : Value} (relaid : Relaid mentioned v v') :
    (∃ members members', v = .obj members ∧ v' = .obj members' ∧
        SeenAlike mentioned members members') ∨
      ∃ elements elements', v = .arr elements ∧ v' = .arr elements' ∧
        List.Forall₂ (Relation.ReflGen (Relaid mentioned)) elements elements' := by
  cases relaid with
  | permuted once same =>
    exact Or.inl ⟨_, _, rfl, rfl, seenAlike_of_eq fun name _ => lookup?_perm once same name⟩
  | @deleted before after name v unknown =>
    refine Or.inl ⟨_, _, rfl, rfl, seenAlike_of_eq fun asked known => ?_⟩
    have other : name ≠ asked := fun same => unknown (same ▸ known)
    simp only [lookup?_append, lookup?, if_neg other]
  | @inMember before after name _ _ inner =>
    exact Or.inl ⟨_, _, rfl, rfl, seenAlike_of_member inner name before after⟩
  | @inElement before after _ _ inner =>
    refine Or.inr ⟨_, _, rfl, rfl, ?_⟩
    have same (elements : List Value) :
        List.Forall₂ (Relation.ReflGen (Relaid mentioned)) elements elements :=
      List.forall₂_same.mpr fun _ _ => .refl
    exact List.rel_append (same before) (.cons (.single inner) (same after))

theorem missing_relaid {members members' : List (String × Value)}
    (alike : SeenAlike mentioned members members') {required : List String}
    (known : ∀ name ∈ required, mentioned name) :
    missing members required = missing members' required := by
  have same : ∀ name ∈ required,
      (lookup? name members).isNone = (lookup? name members').isNone := by
    intro name among
    rcases rel_cases (alike name (known name among)) with ⟨absent, absent'⟩ | ⟨_, _, found, found', _⟩
    · rw [absent, absent']
    · rw [found, found', Option.isNone_some, Option.isNone_some]
  rw [missing, missing, List.filter_congr same]

theorem typeBreach_relaid {v v' : Value} (relaid : Relation.ReflGen (Relaid mentioned) v v')
    (location : Location) (node : Node) (excused : Bool) :
    typeBreach location v node excused = typeBreach location v' node excused := by
  rcases relaid with _ | relaid
  · rfl
  · rcases relaid.cases with ⟨_, _, rfl, rfl, _⟩ | ⟨_, _, rfl, rfl, _⟩ <;> rfl

end

theorem reachable_followFrom {table : References Id} {root : Node} (count : Nat) {followed : List String}
    {node : Node} (reachable : Reachable (some table) root node) :
    Reachable (some table) root (Id.run (followFrom table.lookup count followed node)) := by
  induction count generalizing followed node with
  | zero => exact reachable
  | succ count ih =>
    rw [run_followFrom_succ]
    cases named : node.ref with
    | none => exact reachable
    | some ref =>
      by_cases known : ref ∈ followed
      · simpa only [if_pos known] using reachable
      · simp only [if_neg known]
        cases found : table.lookup ref with
        | none => exact reachable
        | some target => exact ih (.named reachable named rfl found)

theorem reachable_follow {references : Option (References Id)} {root node : Node}
    (reachable : Reachable references root node) :
    Reachable references root (Id.run (follow references node)) := by
  cases references with
  | none => exact reachable
  | some table => exact reachable_followFrom (table.size + 1) reachable

section

variable {references : Option (References Id)} {root : Node}

/-- Two checks of nested objects agree on objects that look the same. -/
def IgnoresLayout (references : Option (References Id)) (root : Node) (descend : Descent Id) : Prop :=
  ∀ members members' node, Reachable references root node →
    SeenAlike (Mentioned references root) members members' → descend members node = descend members' node

variable {descend : Descent Id} (ignores : IgnoresLayout references root descend)
include ignores

theorem insideObject_relaid (location : Location) {v v' : Value}
    (relaid : Relation.ReflGen (Relaid (Mentioned references root)) v v') {node : Node}
    (reachable : Reachable references root node) :
    insideObject descend location v node = insideObject descend location v' node := by
  rcases relaid with _ | relaid
  · rfl
  · rcases relaid.cases with ⟨members, members', rfl, rfl, alike⟩ | ⟨_, _, rfl, rfl, _⟩
    · simp only [insideObject, ignores members members' node reachable alike]
    · rfl

theorem checkElements_relaid (outer : Location) (index : Nat) {elements elements' : List Value}
    (relaid : List.Forall₂ (Relation.ReflGen (Relaid (Mentioned references root))) elements elements')
    {node : Node} (reachable : Reachable references root node) :
    checkElements descend outer node index elements =
      checkElements descend outer node index elements' := by
  induction relaid generalizing index with
  | nil => rfl
  | @cons v v' rest rest' here _ ih =>
    have first : checkElement descend (outer ++ [.index index]) node v =
        checkElement descend (outer ++ [.index index]) node v' := by
      rw [checkElement, checkElement, insideObject_relaid ignores _ here reachable,
        typeBreach_relaid here]
    rw [checkElements, checkElements, first, ih (index + 1)]

theorem insideArray_relaid (location : Location) {v v' : Value}
    (relaid : Relation.ReflGen (Relaid (Mentioned references root)) v v') {node : Node}
    (reachable : Reachable references root node) :
    insideArray references descend location v node = insideArray references descend location v' node := by
  rcases relaid with _ | relaid
  · rfl
  · rcases relaid.cases with ⟨_, _, rfl, rfl, _⟩ | ⟨elements, elements', rfl, rfl, alike⟩
    · rfl
    · unfold insideArray
      cases given : node.items with
      | none => rfl
      | some items =>
        have inner := reachable_follow (.items reachable given)
        simp only [lift_bind, checkElements_relaid ignores location 0 alike inner]

end

section

variable {references : Option (References Id)} {root : Node}

theorem checkMembers_relaid {descend : Nat → Descent Id}
    (ignores : ∀ taken, IgnoresLayout references root (descend taken)) {members members' : List (String × Value)}
    (alike : SeenAlike (Mentioned references root) members members') (properties : List (String × Node))
    (known : ∀ p ∈ properties, Mentioned references root p.1 ∧ Reachable references root p.2) :
    checkMembers (steady references) descend members properties =
      checkMembers (steady references) descend members' properties := by
  induction properties with
  | nil => rfl
  | cons property rest ih =>
    obtain ⟨name, node⟩ := property
    obtain ⟨⟨mentioned, reachable⟩, others⟩ := List.forall_mem_cons.mp known
    have governs := reachable_follow reachable
    rcases rel_cases (alike name mentioned) with ⟨absent, absent'⟩ | ⟨v, v', found, found', relaid⟩
    · simp only [checkMembers, absent, absent', ih others]
    · have null : v.isNull = v'.isNull := by
        rcases relaid with _ | relaid
        · rfl
        · rcases relaid.cases with ⟨_, _, rfl, rfl, _⟩ | ⟨_, _, rfl, rfl, _⟩ <;> rfl
      simp only [checkMembers, found, found', ih others, lift_bind, checkMember, null,
        insideObject_relaid (ignores 1) _ relaid governs, insideArray_relaid (ignores 2) _ relaid governs,
        typeBreach_relaid relaid]

/-- The induction is on the room: a schema may refer to itself. -/
theorem checkObject_relaid (room taken : Nat) :
    IgnoresLayout references root (checkObject (steady references) room taken) := by
  induction room generalizing taken with
  | zero => exact fun _ _ _ _ _ => rfl
  | succ room ih =>
    cases taken with
    | succ taken => exact ih taken
    | zero =>
      intro members members' node reachable alike
      have required : ∀ name ∈ node.required, Mentioned references root name :=
        fun name among => ⟨node, reachable, Or.inl among⟩
      have properties : ∀ p ∈ node.properties.getD [],
          Mentioned references root p.1 ∧ Reachable references root p.2 := by
        intro p among
        refine ⟨⟨node, reachable, Or.inr ⟨p.2, among⟩⟩, ?_⟩
        cases listed : node.properties with
        | none => simp [listed] at among
        | some properties => exact .property reachable listed (by simpa [listed] using among)
      rw [checkObject, checkObject, checkMembers_relaid ih alike _ properties,
        missing_relaid alike required]

theorem violations_relaid (room : Nat) {v v' : Value}
    (relaid : Relaid (Mentioned references root) v v') :
    violations (steady references) room v root = violations (steady references) room v' root := by
  have governs : Reachable references root (Id.run (follow references root)) := reachable_follow .root
  rcases relaid.cases with ⟨members, members', rfl, rfl, alike⟩ | ⟨elements, elements', rfl, rfl, _⟩
  · simp only [violations, lift_bind, checkObject_relaid room 0 members members' _ governs alike]
  · simp only [violations, lift_bind, insideArray_relaid (checkObject_relaid room 1) [] (.single relaid) governs]

end

end PayloadCheck.Schema

namespace PayloadCheck

open Json Schema

/-- The schema that a target stands for; a value that is no object stands for one that says nothing. -/
def Target.schema : Target → Node
  | .raw v => Node.described v
  | .node n => n

section

variable (references : Option (References Id)) (room : Nat) (target : Target) {data data' : Value}

theorem Target.check_relaid (relaid : Relaid (Mentioned references target.schema) data data') :
    Id.run (target.check (steady references) room data) =
      Id.run (target.check (steady references) room data') := by
  cases target with
  | node n => exact congrArg (reports ∘ Id.run ∘ OptionT.run) (violations_relaid room relaid)
  | raw schema =>
    by_cases readable : Node.calls schema ≤ room
    · exact checkRaw_congr readable readable references (congrArg result? (violations_relaid room relaid))
    · have unread : Node.read? room schema = none := if_pos (Nat.lt_of_not_le readable)
      simp only [Target.check, checkRaw, unread]

/-- Two payloads that become the same when members of objects are put in order and those that no schema
mentions are deleted, at any depth and as often as one likes, get the same errors in the same order. -/
theorem Target.check_ignores_layout
    (same : Relation.Join (Relation.ReflTransGen (Relaid (Mentioned references target.schema))) data data') :
    Id.run (target.check (steady references) room data) =
      Id.run (target.check (steady references) room data') := by
  obtain ⟨plain, left, right⟩ := same
  have along {v w : Value}
      (changes : Relation.ReflTransGen (Relaid (Mentioned references target.schema)) v w) :
      Id.run (target.check (steady references) room v) =
        Id.run (target.check (steady references) room w) := by
    induction changes with
    | refl => rfl
    | tail _ change ih => exact ih.trans (target.check_relaid references room change)
  exact (along left).trans (along right).symm

end

/-- A tree with names that its schema does not mention, and another way to write it down. -/
def taggedTree : Value :=
  .obj [("children", .arr [.obj [("age", .int 3)]]), ("name", .str "a")]

def leafyTree : Value :=
  .obj [("name", .str "a"), ("tag", .arr []), ("children", .arr [.obj []])]

/-- The schema of a tree, as it is read. -/
def treeNode : Node := Node.ofMembers [("type", .str "object"), ("required", .arr [.str "name"]),
  ("properties", .obj [("name", .obj [("type", .str "string")]),
    ("children", .obj [("type", .str "array"), ("items", treeReference)])])]

/-- Trees ask for names and children only, however deep. -/
theorem mentioned_tree {name : String}
    (mentioned : Mentioned treeReferences (Node.described treeReference) name) :
    name = "name" ∨ name = "children" := by
  obtain ⟨n, reachable, asked⟩ := mentioned
  have met : n = Node.described treeReference ∨ n = treeNode ∨
      n = Node.described (.obj [("type", .str "string")]) ∨
      n = Node.described (.obj [("type", .str "array"), ("items", treeReference)]) := by
    clear asked
    induction reachable with
    | root => exact Or.inl rfl
    | property _ listed among ih =>
      rcases ih with rfl | rfl | rfl | rfl
      · cases listed
      · cases listed
        rcases List.mem_cons.mp among with same | among
        · cases same
          exact Or.inr (Or.inr (Or.inl rfl))
        · cases List.mem_singleton.mp among
          exact Or.inr (Or.inr (Or.inr rfl))
      · cases listed
      · cases listed
    | items _ given ih =>
      rcases ih with rfl | rfl | rfl | rfl <;> cases given
      exact Or.inl rfl
    | named _ own table found ih =>
      rcases ih with rfl | rfl | rfl | rfl <;> cases own
      cases table
      cases found
      exact Or.inr (Or.inl rfl)
  rcases met with rfl | rfl | rfl | rfl
  · exact asked.elim nofun fun ⟨_, listed⟩ => nomatch listed
  · rcases asked with required | ⟨_, listed⟩
    · exact Or.inl (List.mem_singleton.mp required)
    · rcases List.mem_cons.mp listed with same | listed
      · exact Or.inl (congrArg Prod.fst same)
      · exact Or.inr (congrArg Prod.fst (List.mem_singleton.mp listed))
  · exact asked.elim nofun fun ⟨_, listed⟩ => nomatch listed
  · exact asked.elim nofun fun ⟨_, listed⟩ => nomatch listed

theorem Target.check_ignores_layout_tree :
    Relation.Join (Relation.ReflTransGen (Relaid (Mentioned treeReferences
        (Target.raw treeReference).schema))) taggedTree leafyTree ∧
      Id.run ((Target.raw treeReference).check (steady treeReferences) standardRoom taggedTree) =
        Id.run ((Target.raw treeReference).check (steady treeReferences) standardRoom leafyTree) := by
  have unknown (name : String) (other : name ≠ "name" ∧ name ≠ "children" := by decide) :
      ¬ Mentioned treeReferences (Target.raw treeReference).schema name :=
    fun mentioned => (mentioned_tree mentioned).elim other.1 other.2
  have young := @Relaid.deleted _ [] [] "age" (.int 3) (unknown "age")
  have aged := @Relaid.inMember _ [] [("name", .str "a")] "children" _ _ (@Relaid.inElement _ [] [] _ _ young)
  have turned : Relaid (Mentioned treeReferences (Target.raw treeReference).schema)
      (.obj [("children", .arr [.obj []]), ("name", .str "a")])
      (.obj [("name", .str "a"), ("children", .arr [.obj []])]) :=
    .permuted (by decide) (.swap _ _ [])
  have tagged := @Relaid.deleted _ [("name", .str "a")] [("children", .arr [.obj []])] "tag" (.arr [])
    (unknown "tag")
  have same : Relation.Join (Relation.ReflTransGen (Relaid (Mentioned
      treeReferences (Target.raw treeReference).schema))) taggedTree leafyTree :=
    ⟨_, .tail (.single aged) turned, .single tagged⟩
  exact ⟨same, Target.check_ignores_layout _ _ (.raw treeReference) same⟩

end PayloadCheck
