import Mathlib.Data.List.Nodup
import PayloadCheck.Proofs.Spec.Legible
import PayloadCheck.Proofs.Spec.Listing

namespace PayloadCheck.Spec

open Json

/-- The operation that a member of a path item declares: a mapping under the name of a method. -/
def memberDeclaration? (path : String) (member : String × Value) : Option Declaration :=
  if member.1 ∈ methods then member.2.members?.map fun description => ⟨member.1, path, description⟩
  else none

/-- The operations of a path, in the order of the path item. -/
def itemDeclarations (path : String) (item : Value) : List Declaration :=
  (item.members?.getD []).filterMap (memberDeclaration? path)

/-- The declared operations in the order of the document: by path, and by member of the path item within
one. -/
def documentDeclarations (document : Value) : List Declaration :=
  (paths document).flatMap fun (path, item) => itemDeclarations path item

/-- The operations as they would be listed in the order in which the document declares them. -/
def operationsAsDeclared (room : Nat) (document : Value) : List Operation :=
  (documentDeclarations document).map fun d => d.operation (resolve room document d.method d.path).isSome

/-- The place of a method, in whatever case, among the methods. -/
def rank (method : String) : Nat := methods.idxOf (lowerCase method)

/-- Of two operations of one path, the first has the method that comes first. -/
def Operation.MethodsAscend (op other : Operation) : Prop :=
  op.path = other.path → rank op.method < rank other.method

instance : DecidableRel Operation.MethodsAscend :=
  fun op other => inferInstanceAs (Decidable (op.path = other.path → rank op.method < rank other.method))

/-- The same of two declarations. -/
def Declaration.MethodsAscend (d e : Declaration) : Prop :=
  d.path = e.path → rank d.method < rank e.method

theorem methods_ascend : methods.Pairwise (rank · < rank ·) := by decide +kernel

theorem rank_upperCase : ∀ method ∈ methods, rank (upperCase method) = rank method := by decide +kernel

theorem mem_itemDeclarations {path : String} {item : Value} {d : Declaration} :
    d ∈ itemDeclarations path item ↔
      d.method ∈ methods ∧ d.path = path ∧ (d.method, .obj d.description) ∈ item.members?.getD [] := by
  simp only [itemDeclarations, List.mem_filterMap, memberDeclaration?]
  constructor
  · rintro ⟨⟨name, v⟩, among, made⟩
    split at made
    next known =>
      obtain ⟨description, object, rfl⟩ := Option.map_eq_some_iff.mp made
      cases v with
      | obj members =>
        cases object
        exact ⟨known, rfl, among⟩
      | _ => exact nomatch object
    next => exact nomatch made
  · rintro ⟨known, rfl, among⟩
    exact ⟨_, among, if_pos known⟩

theorem documentDeclarations_known {document : Value} {d : Declaration}
    (among : d ∈ documentDeclarations document) : d.method ∈ methods := by
  obtain ⟨_, _, inside⟩ := List.mem_flatMap.mp among
  exact (mem_itemDeclarations.mp inside).1

/-- Summaries write the methods in capitals, which leaves their places as they are. -/
theorem ascend_summaries {all : List Declaration} (known : ∀ d ∈ all, d.method ∈ methods)
    {hasSchema : Declaration → Bool} :
    (all.map fun d => d.operation (hasSchema d)).Pairwise Operation.MethodsAscend ↔
      all.Pairwise Declaration.MethodsAscend := by
  rw [List.pairwise_map]
  refine List.Pairwise.iff_of_mem fun {d e} among among' => ?_
  unfold Operation.MethodsAscend Declaration.MethodsAscend Declaration.operation
  rw [rank_upperCase _ (known d among), rank_upperCase _ (known e among')]

theorem pathDeclarations_ascend (path : String) (item : Value) :
    (pathDeclarations path item).Pairwise (rank ·.method < rank ·.method) := by
  unfold pathDeclarations
  rw [List.pairwise_filterMap]
  refine methods_ascend.imp fun before d made e made' => ?_
  obtain ⟨_, _, rfl⟩ := Option.map_eq_some_iff.mp made
  obtain ⟨_, _, rfl⟩ := Option.map_eq_some_iff.mp made'
  exact before

section

variable {item : Value} (once : ((item.members?.getD []).map (·.1)).Nodup)
include once

theorem itemDeclarations_nodup (path : String) : (itemDeclarations path item).Nodup := by
  unfold itemDeclarations List.Nodup
  rw [List.pairwise_filterMap]
  refine (List.pairwise_map.mp once).imp fun apart d made e made' same => apart ?_
  have named {member : String × Value} {d : Declaration} (made : memberDeclaration? path member = some d) :
      d.method = member.1 := by
    unfold memberDeclaration? at made
    split at made
    next =>
      obtain ⟨_, _, rfl⟩ := Option.map_eq_some_iff.mp made
      rfl
    next => exact nomatch made
  rw [← named made, ← named made', same]

/-- Going by the methods and going by the members of the path item meets the same operations. -/
theorem pathDeclarations_perm (path : String) :
    (pathDeclarations path item).Perm (itemDeclarations path item) := by
  have nodup : (pathDeclarations path item).Nodup :=
    (pathDeclarations_ascend path item).imp fun before same => by
      rw [same] at before
      exact lt_irrefl _ before
  refine (List.perm_ext_iff_of_nodup nodup (itemDeclarations_nodup once path)).mpr fun d => ?_
  have found : item.get? d.method = some (.obj d.description) ↔
      (d.method, .obj d.description) ∈ item.members?.getD [] := by
    unfold Value.get?
    cases object : item.members? with
    | none => simp
    | some members =>
      rw [object, Option.getD_some] at once
      exact ⟨mem_of_lookup?, lookup?_of_mem once⟩
  rw [mem_pathDeclarations, mem_itemDeclarations, found]

/-- They meet them in one order only if the path item has its methods in theirs. -/
theorem pathDeclarations_eq (path : String)
    (ascend : (itemDeclarations path item).Pairwise (rank ·.method < rank ·.method)) :
    pathDeclarations path item = itemDeclarations path item :=
  (pathDeclarations_perm once path).eq_of_pairwise
    (fun _ _ _ _ before after => absurd before (lt_asymm after)) (pathDeclarations_ascend path item) ascend

theorem pathDeclarations_paths (path : String) :
    (pathDeclarations path item).map (·.path) = (itemDeclarations path item).map (·.path) := by
  have one : (itemDeclarations path item).map (·.path) =
      List.replicate (itemDeclarations path item).length path :=
    List.map_eq_replicate_iff.mpr fun d among => (mem_itemDeclarations.mp among).2.1
  rw [one]
  exact List.perm_replicate.mp (one ▸ (pathDeclarations_perm once path).map (·.path))

end

section

variable {room : Nat} {document : Value} (once : document.NamesOnce)
include once

theorem item_names_nodup {entry : String × Value} (among : entry ∈ paths document) :
    ((entry.2.members?.getD []).map (·.1)).Nodup := by
  have item : entry.2.NamesOnce := by
    unfold paths at among
    cases found : document.get? "paths" with
    | none =>
      rw [found] at among
      exact nomatch among
    | some table =>
      rw [found] at among
      cases table with
      | obj members => exact (once.get? found).children _ (List.mem_map_of_mem among)
      | _ => exact nomatch among
  cases object : entry.2.members? with
  | none => exact List.nodup_nil
  | some members => exact item.members_nodup object

theorem operations_perm : (operations room document).Perm (operationsAsDeclared room document) :=
  (List.Perm.flatMap_left _ fun entry among =>
    pathDeclarations_perm (item_names_nodup once among) entry.1).map _

theorem operations_paths :
    (operations room document).map (·.path) = (operationsAsDeclared room document).map (·.path) := by
  simp only [operations, operationsAsDeclared, declarations, documentDeclarations, List.map_map,
    List.map_flatMap]
  exact List.flatMap_congr fun entry among => pathDeclarations_paths (item_names_nodup once among) entry.1

theorem operations_ascend : (operations room document).Pairwise Operation.MethodsAscend := by
  refine (ascend_summaries fun d among => (mem_declarations.mp among).1).mpr ?_
  unfold declarations
  rw [List.pairwise_flatMap]
  constructor
  · rintro ⟨path, item⟩ _
    refine (pathDeclarations_ascend path item).imp ?_
    exact fun before _ => before
  · -- Two path items have different paths, so nothing is asked of their operations.
    refine (List.pairwise_map.mp (paths_nodup once)).imp fun apart d among e among' same => absurd ?_ apart
    rw [← (mem_pathDeclarations.mp among).2.1, same, (mem_pathDeclarations.mp among').2.1]

theorem operations_eq (ascend : (operationsAsDeclared room document).Pairwise Operation.MethodsAscend) :
    operations room document = operationsAsDeclared room document := by
  rw [operationsAsDeclared, ascend_summaries fun _ => documentDeclarations_known, documentDeclarations,
    List.pairwise_flatMap] at ascend
  have each : declarations document = documentDeclarations document :=
    List.flatMap_congr fun entry among =>
      pathDeclarations_eq (item_names_nodup once among) entry.1 <|
        (ascend.1 entry among).imp_of_mem fun first second before =>
          before ((mem_itemDeclarations.mp first).2.1.trans (mem_itemDeclarations.mp second).2.1.symm)
  rw [operations, operationsAsDeclared, each]

end

/-- Whatever a resolver has been asked before, it lists the declared operations, unless reading the schema of
one ends with an error. The paths follow each other as in the document, and the methods of one path in the
order of the methods: the list is in the order of the document exactly if every path item has its methods
in that order. -/
theorem operations_order (room : Nat) {document : Value} (once : document.NamesOnce)
    (asked : List Resolver.Query) :
    let answer := (Resolver.operations room (Resolver.askAll room (.ofDocument document) asked).2).1
    (∀ listed, answer = .ok listed →
      listed.Perm (operationsAsDeclared room document) ∧
        listed.map (·.path) = (operationsAsDeclared room document).map (·.path) ∧
        listed.Pairwise Operation.MethodsAscend ∧
        (listed = operationsAsDeclared room document ↔
          (operationsAsDeclared room document).Pairwise Operation.MethodsAscend)) ∧
    (Legible document → ∃ listed, answer = .ok listed) := by
  obtain ⟨_, same, sound⟩ :=
    Resolver.askAll_answers document room asked rfl (Resolver.ofDocument_sound room document)
  have answer := (Resolver.operations_answers document room _ same sound).1
  simp only [answer]
  refine ⟨fun listed given => ?_, fun legible => ⟨_, legible.trySummaries_eq room _⟩⟩
  obtain rfl := Resolver.trySummaries_ok given
  refine ⟨operations_perm once, operations_paths once, operations_ascend once, ?_, operations_eq once⟩
  intro inOrder
  exact inOrder ▸ operations_ascend once

/-- A document whose one path item has a method before one that is listed earlier. -/
def postBeforeGet : Value :=
  .obj [("paths", .obj [("/a", .obj [("post", .obj []), ("get", .obj [])])])]

theorem postBeforeGet_namesOnce : postBeforeGet.NamesOnce := by
  have single (name : String) {v : Value} (once : v.NamesOnce) : (Value.obj [(name, v)]).NamesOnce :=
    .obj (List.nodup_singleton name) (List.forall_mem_singleton.mpr once)
  have empty : (Value.obj []).NamesOnce := .obj List.nodup_nil (List.forall_mem_nil _)
  refine single "paths" (single "/a" (.obj (by decide) ?_))
  exact List.forall_mem_cons.mpr ⟨empty, List.forall_mem_singleton.mpr empty⟩

theorem operations_order_postBeforeGet :
    postBeforeGet.NamesOnce ∧ Legible postBeforeGet ∧
      ∃ listed, (Resolver.operations standardRoom
          (Resolver.askAll standardRoom (.ofDocument postBeforeGet) [.operations]).2).1 = .ok listed ∧
        listed.Perm (operationsAsDeclared standardRoom postBeforeGet) ∧
        listed.map (·.path) = ["/a", "/a"] ∧ listed.Pairwise Operation.MethodsAscend ∧
        ¬ (operationsAsDeclared standardRoom postBeforeGet).Pairwise Operation.MethodsAscend ∧
        listed ≠ operationsAsDeclared standardRoom postBeforeGet := by
  have descend : ¬ (operationsAsDeclared standardRoom postBeforeGet).Pairwise
      Operation.MethodsAscend := by decide +kernel
  have legible : Legible postBeforeGet := legible_of_whole (by decide)
  obtain ⟨each, returns⟩ := operations_order standardRoom postBeforeGet_namesOnce [.operations]
  obtain ⟨listed, answer⟩ := returns legible
  obtain ⟨perm, paths, ascend, inOrder⟩ := each listed answer
  exact ⟨postBeforeGet_namesOnce, legible, listed, answer, perm, paths, ascend, descend,
    fun same => descend (inOrder.mp same)⟩

/-- The path item declares POST and then GET; they are listed the other way round. -/
theorem operations_out_of_order :
    let answer := (Resolver.operations standardRoom (.ofDocument postBeforeGet)).1
    (operationsAsDeclared standardRoom postBeforeGet).map (fun op => (op.method, op.path)) =
        [("POST", "/a"), ("GET", "/a")] ∧
      answer.toOption.map (·.map fun op => (op.method, op.path)) =
        some [("GET", "/a"), ("POST", "/a")] ∧
      answer.toOption ≠ some (operationsAsDeclared standardRoom postBeforeGet) := by
  decide +kernel

end PayloadCheck.Spec
