import Mathlib.Data.List.Nodup
import PayloadCheck.Proofs.Document.NamesOnce
import PayloadCheck.Proofs.Text.Case
import PayloadCheck.Spec.Document

namespace PayloadCheck.Spec

open Json

theorem methods_nodup : methods.Nodup := by decide

theorem methods_plain {name : String} (known : name ∈ methods) :
    ∀ c ∈ name.toList, c ∈ Text.plainLetters := by
  have all : methods.all fun name => name.toList.all (Text.plainLetters.contains ·) := by decide +kernel
  intro c among
  exact List.contains_iff_mem.mp (List.all_eq_true.mp (List.all_eq_true.mp all name known) c among)

/-- The methods are told apart by their capitals. -/
theorem upperCase_injOn :
    ∀ one ∈ methods, ∀ other ∈ methods, upperCase one = upperCase other → one = other := by
  decide +kernel

theorem lowerCase_of_mem : ∀ name ∈ methods, lowerCase name = name := by decide +kernel

theorem upperCase_lowerCase {method : String} (known : lowerCase method ∈ methods) :
    upperCase (lowerCase method) = upperCase method := by
  have plain := methods_plain known
  rw [lowerCase, String.toList_ofList] at plain
  rw [upperCase, upperCase, lowerCase, String.toList_ofList, Text.upper_lower plain]

theorem resolve_lowerCase {room : Nat} {document : Value} {method path : String}
    (known : lowerCase method ∈ methods) :
    resolve room document (lowerCase method) path = resolve room document method path := by
  rw [resolve, resolve, lowerCase_of_mem _ known]

theorem ne_empty_of_known {method : String} (known : lowerCase method ∈ methods) : method ≠ "" := by
  rintro rfl
  revert known
  decide +kernel

/-- The path item of a path holds a mapping under a method. -/
def Declares (document : Value) (method path : String) : Prop :=
  ∃ description, document.dig? ["paths", path, method] = some (.obj description)

/-- An operation is listed for a method, in whatever case, and a path. -/
def Operation.IsFor (method path : String) (op : Operation) : Prop :=
  op.method = upperCase method ∧ op.path = path

instance (method path : String) : DecidablePred (Operation.IsFor method path) :=
  fun _ => inferInstanceAs (Decidable (_ ∧ _))

theorem mem_pathDeclarations {path : String} {item : Value} {d : Declaration} :
    d ∈ pathDeclarations path item ↔
      d.method ∈ methods ∧ d.path = path ∧ item.get? d.method = some (.obj d.description) := by
  have object (v : Value) (description : List (String × Value)) :
      v.members? = some description ↔ v = .obj description := by
    cases v <;> simp [Value.members?]
  simp only [pathDeclarations, List.mem_filterMap, Option.map_eq_some_iff, Option.bind_eq_some_iff, object]
  constructor
  · rintro ⟨method, known, description, ⟨_, found, rfl⟩, rfl⟩
    exact ⟨known, rfl, found⟩
  · rintro ⟨known, rfl, found⟩
    exact ⟨d.method, known, d.description, ⟨_, found, rfl⟩, rfl⟩

theorem mem_declarations {document : Value} {d : Declaration} :
    d ∈ declarations document ↔
      d.method ∈ methods ∧ ∃ item, (d.path, item) ∈ paths document ∧
        item.get? d.method = some (.obj d.description) := by
  simp only [declarations, List.mem_flatMap, mem_pathDeclarations]
  constructor
  · rintro ⟨⟨path, item⟩, among, known, rfl, found⟩
    exact ⟨known, item, among, found⟩
  · rintro ⟨known, item, among, found⟩
    exact ⟨(d.path, item), among, known, rfl, found⟩

theorem dig?_paths {document : Value} {method path : String} :
    document.dig? ["paths", path, method] =
      (lookup? path (paths document)).bind (·.get? method) := by
  unfold paths
  rw [Value.dig?]
  cases document.get? "paths" with
  | none => rfl
  | some table =>
    cases table with
    | obj members => simp only [Value.dig?, Option.bind_some, Option.bind_fun_some, Value.get?,
        Value.members?, Option.getD_some]
    | _ => rfl

/-- An operation that is listed for a method and a path is the one that is declared there. -/
theorem Operation.IsFor.declared {room : Nat} {document : Value} {method path : String}
    (known : lowerCase method ∈ methods) {op : Operation} (among : op ∈ operations room document)
    (isFor : op.IsFor method path) :
    ∃ d ∈ declarations document, d.method = lowerCase method ∧ d.path = path ∧
      op = d.operation (resolve room document d.method d.path).isSome := by
  obtain ⟨d, declared, rfl⟩ := List.mem_map.mp among
  obtain ⟨sameMethod, samePath⟩ := isFor
  rw [← upperCase_lowerCase known] at sameMethod
  exact ⟨d, declared, upperCase_injOn _ (mem_declarations.mp declared).1 _ known sameMethod, samePath, rfl⟩

theorem filter_eq_singleton {α : Type} {p : α → Bool} {all : List α} {a : α} (among : a ∈ all)
    (taken : p a = true) (apart : all.Pairwise fun b c => ¬ (p b = true ∧ p c = true)) :
    all.filter p = [a] := by
  induction all with
  | nil => exact nomatch among
  | cons b rest ih =>
    obtain ⟨alone, others⟩ := List.pairwise_cons.mp apart
    rcases List.mem_cons.mp among with rfl | later
    · have none_left : ∀ c ∈ rest, ¬ p c = true := fun c member both => alone c member ⟨taken, both⟩
      rw [List.filter_cons_of_pos taken, List.filter_eq_nil_iff.mpr none_left]
    · have left : ¬ p b = true := fun both => alone a later ⟨both, taken⟩
      rw [List.filter_cons_of_neg left, ih later others]

section

variable {document : Value} (once : document.NamesOnce)
include once

theorem paths_nodup : ((paths document).map (·.1)).Nodup := by
  unfold paths
  cases found : document.get? "paths" with
  | none => exact List.nodup_nil
  | some table =>
    cases object : table.members? with
    | none =>
      rw [Option.bind_some, object]
      exact List.nodup_nil
    | some members =>
      rw [Option.bind_some, object]
      exact (once.get? found).members_nodup object

theorem mem_paths_iff {path : String} {item : Value} :
    (path, item) ∈ paths document ↔ lookup? path (paths document) = some item :=
  ⟨lookup?_of_mem (paths_nodup once), mem_of_lookup?⟩

theorem declares_iff {method path : String} (known : method ∈ methods) :
    Declares document method path ↔
      ∃ d ∈ declarations document, d.method = method ∧ d.path = path := by
  simp only [Declares, dig?_paths, Option.bind_eq_some_iff, mem_declarations, mem_paths_iff once]
  constructor
  · rintro ⟨description, item, atPath, found⟩
    exact ⟨⟨method, path, description⟩, ⟨known, item, atPath, found⟩, rfl, rfl⟩
  · rintro ⟨d, ⟨_, item, atPath, found⟩, rfl, rfl⟩
    exact ⟨d.description, item, atPath, found⟩

/-- No method is declared twice for a path. -/
theorem declarations_pairwise :
    (declarations document).Pairwise fun d e => ¬ (d.method = e.method ∧ d.path = e.path) := by
  unfold declarations
  rw [List.pairwise_flatMap]
  constructor
  · rintro ⟨path, item⟩ _
    unfold pathDeclarations
    rw [List.pairwise_filterMap]
    refine methods_nodup.imp fun apart d made e made' same => apart ?_
    obtain ⟨_, _, rfl⟩ := Option.map_eq_some_iff.mp made
    obtain ⟨_, _, rfl⟩ := Option.map_eq_some_iff.mp made'
    exact same.1
  · have apart := List.pairwise_map.mp (paths_nodup once)
    refine apart.imp fun other d among e among' same => other ?_
    rw [← (mem_pathDeclarations.mp among).2.1, ← (mem_pathDeclarations.mp among').2.1]
    exact same.2

theorem operations_pairwise (room : Nat) :
    (operations room document).Pairwise fun op other =>
      ¬ (op.method = other.method ∧ op.path = other.path) := by
  unfold operations
  rw [List.pairwise_map]
  refine (declarations_pairwise once).imp_of_mem fun among among' apart same => apart ⟨?_, same.2⟩
  exact upperCase_injOn _ (mem_declarations.mp among).1 _ (mem_declarations.mp among').1 same.1

/-- An operation is listed exactly if it is declared, and then it is the only one for its method and
path, and is told to have a schema exactly if it has one. -/
theorem operations_isFor (room : Nat) {method : String} (path : String) (known : lowerCase method ∈ methods) :
    ((∃ op ∈ operations room document, op.IsFor method path) ↔
      Declares document (lowerCase method) path) ∧
    ∀ op ∈ operations room document, op.IsFor method path →
      (operations room document).filter (Operation.IsFor method path) = [op] ∧
      op.hasSchema = (resolve room document method path).isSome := by
  refine ⟨?_, fun op among isFor => ⟨?_, ?_⟩⟩
  · rw [declares_iff once known]
    constructor
    · rintro ⟨op, among, isFor⟩
      obtain ⟨d, declared, sameMethod, samePath, _⟩ := isFor.declared known among
      exact ⟨d, declared, sameMethod, samePath⟩
    · rintro ⟨d, declared, sameMethod, samePath⟩
      refine ⟨_, List.mem_map_of_mem declared, ?_, samePath⟩
      exact (congrArg upperCase sameMethod).trans (upperCase_lowerCase known)
  · refine filter_eq_singleton among (decide_eq_true isFor) ?_
    refine (operations_pairwise once room).imp fun apart both => apart ?_
    have first := of_decide_eq_true both.1
    have second := of_decide_eq_true both.2
    exact ⟨first.1.trans second.1.symm, first.2.trans second.2.symm⟩
  · obtain ⟨d, _, sameMethod, samePath, rfl⟩ := isFor.declared known among
    rw [sameMethod, samePath, resolve_lowerCase known]
    rfl

end

end PayloadCheck.Spec
