import Mathlib.Data.List.Perm.Subperm
import Mathlib.Data.List.Nodup
import PayloadCheck.Spec.Document

namespace PayloadCheck.Schema

open Json

/-- A chain of references from a schema ends at another, after some references have been followed. It
stops at a schema without a reference, at a reference that names nothing, and before it would follow
a reference again. -/
inductive Leads (lookup : String → Option Node) : (followed : List String) → Node → Node → Prop
  | plain {followed node} : node.ref = none → Leads lookup followed node node
  | again {followed node ref} :
      node.ref = some ref → ref ∈ followed → Leads lookup followed node node
  | dangling {followed node ref} :
      node.ref = some ref → ref ∉ followed → lookup ref = none → Leads lookup followed node node
  | next {followed node ref target last} :
      node.ref = some ref → ref ∉ followed → lookup ref = some target →
      Leads lookup (ref :: followed) target last → Leads lookup followed node last

/-- A chain ends in one place only. -/
theorem Leads.unique {lookup : String → Option Node} {followed : List String} {node last other : Node}
    (leads : Leads lookup followed node last) (leads' : Leads lookup followed node other) :
    last = other := by
  induction leads generalizing other with
  | plain without => cases leads' <;> simp_all
  | again named known => cases leads' <;> simp_all
  | dangling named fresh nothing => cases leads' <;> simp_all
  | @next followed node ref target last named fresh found _ ih =>
    cases leads' with
    | plain without => simp_all
    | again named' known => simp_all
    | dangling named' fresh' nothing => simp_all
    | next named' fresh' found' rest =>
      obtain rfl : ref = _ := Option.some.inj (named.symm.trans named')
      obtain rfl : target = _ := Option.some.inj (found.symm.trans found')
      exact ih rest

/-- The schema that counts where a schema stands: without references to look up it is the schema
itself, and otherwise the end of its chain. -/
def Dereferenced (references : Option (References Id)) (node resolved : Node) : Prop :=
  match references with
  | none => resolved = node
  | some table => Leads table.lookup [] node resolved

/-- The size that comes with references bounds the number of schemas that they can name. -/
def References.Bounded (table : References Id) : Prop :=
  ∃ entries : List Node, entries.length ≤ table.size ∧
    ∀ ref target, table.lookup ref = some target → target ∈ entries

/-- One look-up, without effects. -/
theorem run_followFrom_succ (lookup : String → Option Node) (count : Nat) (followed : List String)
    (node : Node) :
    Id.run (followFrom (m := Id) lookup (count + 1) followed node) =
      match node.ref with
      | none => node
      | some ref =>
        if ref ∈ followed then node
        else
          match lookup ref with
          | none => node
          | some target => Id.run (followFrom (m := Id) lookup count (ref :: followed) target) := by
  rw [followFrom]
  cases named : node.ref with
  | none => rfl
  | some ref =>
    by_cases known : ref ∈ followed
    · simp [known]
    · simp only [List.contains_eq_mem, known, decide_false, Bool.false_eq_true, if_false]
      cases lookup ref <;> rfl

/-- The schemas passed so far are all different, so a chain over a list of entries has passed every
entry when as many look-ups have been made as there are entries. -/
theorem followFrom_leads {lookup : String → Option Node} {entries visited : List Node}
    {followed : List String} {count : Nat} {node : Node}
    (closed : ∀ ref target, lookup ref = some target → target ∈ entries) (member : node ∈ entries)
    (distinct : visited.Nodup) (within : visited ⊆ entries)
    (passed : ∀ n ∈ visited, ∀ ref, n.ref = some ref → ref ∈ followed)
    (enough : entries.length ≤ count + visited.length) :
    Leads lookup followed node (Id.run (followFrom (m := Id) lookup count followed node)) := by
  induction count generalizing followed node visited with
  | zero =>
    -- Every entry has been passed, this one too, so its reference has been followed before.
    have all : entries.Perm visited :=
      ((distinct.subperm within).perm_of_length_le (by omega)).symm
    change Leads lookup followed node node
    cases named : node.ref with
    | none => exact .plain named
    | some ref => exact .again named (passed node (all.subset member) ref named)
  | succ count ih =>
    rw [run_followFrom_succ]
    cases named : node.ref with
    | none => exact .plain named
    | some ref =>
      by_cases known : ref ∈ followed
      · simpa only [if_pos known] using Leads.again named known
      · simp only [if_neg known]
        cases found : lookup ref with
        | none => exact .dangling named known found
        | some target =>
          have unseen : node ∉ visited := fun seen => known (passed node seen ref named)
          have rest : Leads lookup (ref :: followed) target
              (Id.run (followFrom (m := Id) lookup count (ref :: followed) target)) := by
            refine ih (closed ref target found)
              (List.nodup_cons.mpr ⟨unseen, distinct⟩) (List.cons_subset.mpr ⟨member, within⟩) ?_ ?_
            · intro n old other namedOther
              rcases List.mem_cons.mp old with rfl | old
              · obtain rfl : ref = other := Option.some.inj (named.symm.trans namedOther)
                exact List.mem_cons_self
              · exact List.mem_cons_of_mem _ (passed n old other namedOther)
            · simp only [List.length_cons]
              omega
          exact .next named known found rest

/-- Following references reaches the end of their chain. -/
theorem dereferenced_follow {references : Option (References Id)}
    (bounded : ∀ table ∈ references, table.Bounded) (node : Node) :
    Dereferenced references node (Id.run (follow references node)) := by
  cases references with
  | none => rfl
  | some table =>
    obtain ⟨entries, size, closed⟩ := bounded table rfl
    change Leads table.lookup [] node (Id.run (followFrom table.lookup (table.size + 1) [] node))
    rw [run_followFrom_succ]
    cases named : node.ref with
    | none => exact .plain named
    | some ref =>
      simp only [List.not_mem_nil, if_false]
      cases found : table.lookup ref with
      | none => exact .dangling named List.not_mem_nil found
      | some target =>
        have rest : Leads table.lookup [ref] target
            (Id.run (followFrom (m := Id) table.lookup table.size [ref] target)) :=
          followFrom_leads closed (closed ref target found) List.nodup_nil (List.nil_subset _)
            (fun _ absurd => nomatch absurd) (by simpa using size)
        exact .next named List.not_mem_nil found rest

theorem dereferenced_iff {references : Option (References Id)}
    (bounded : ∀ table ∈ references, table.Bounded) {node resolved : Node} :
    Dereferenced references node resolved ↔ resolved = Id.run (follow references node) := by
  constructor
  · intro ends
    have reached := dereferenced_follow bounded node
    cases references with
    | none => exact ends.trans reached.symm
    | some table => exact Leads.unique ends reached
  · rintro rfl
    exact dereferenced_follow bounded node

end PayloadCheck.Schema

namespace PayloadCheck.Spec

open Json Schema

/-- The entries of the schema tables of a document. -/
def tableEntries (document : Value) : List (String × Value) :=
  tables.flatMap fun table => ((document.dig? table.way).bind (·.members?)).getD []

theorem mem_tableEntries_of_rawRef? {document raw : Value} {ref : String}
    (named : rawRef? document ref = some raw) : ∃ name, (name, raw) ∈ tableEntries document := by
  obtain ⟨⟨table, name⟩, atTable, atEntry⟩ := Option.bind_eq_some_iff.mp named
  obtain ⟨value, dug, got⟩ := Option.bind_eq_some_iff.mp atEntry
  obtain ⟨members, listed, found⟩ := Option.bind_eq_some_iff.mp got
  obtain ⟨table', known, chosen⟩ := List.exists_of_findSome?_eq_some atTable
  have same : table' = table := by
    split at chosen
    · exact (Prod.mk.inj (Option.some.inj chosen)).1
    · exact nomatch chosen
  subst same
  refine ⟨name, List.mem_flatMap.mpr ⟨table', known, ?_⟩⟩
  simpa [dug, listed] using mem_of_lookup? found

/-- The references of a document name no more schemas than its tables have entries. -/
theorem references_bounded (room : Nat) (document : Value) : (references room document).Bounded := by
  refine ⟨(tableEntries document).filterMap fun entry => readSchema room entry.2,
    List.length_filterMap_le _ _, ?_⟩
  intro ref target found
  obtain ⟨raw, named, read⟩ := Option.bind_eq_some_iff.mp found
  obtain ⟨name, member⟩ := mem_tableEntries_of_rawRef? named
  exact List.mem_filterMap.mpr ⟨(name, raw), member, read⟩

theorem documentReferences_bounded (room : Nat) (document : Option Value) :
    ∀ table ∈ document.map (references room), table.Bounded := by
  intro table given
  obtain ⟨d, _, rfl⟩ := Option.map_eq_some_iff.mp given
  exact references_bounded room d

end PayloadCheck.Spec
