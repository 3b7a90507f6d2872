import PayloadCheck.Proofs.FirstFailure
import PayloadCheck.Yaml.Content

namespace PayloadCheck.Yaml

/-- Something comes out of a computation. -/
def Builds {α : Type} (result : Except Failure α) : Prop := ∃ a, result = .ok a

/-- A scalar of a type has no value: its text is no truth value or no number, a number with too many
digits, or a time that there is not. -/
inductive Unbuildable (v : Version) : NodeType → List Char → ValueFault → Prop
  | bool {text : List Char} {fault : ValueFault} :
      truth text = .error fault → Unbuildable v .bool text fault
  | int {text : List Char} {fault : ValueFault} :
      integer v text = .error fault → Unbuildable v .int text fault
  | float {text : List Char} {fault : ValueFault} :
      float v text = .error fault → Unbuildable v .float text fault
  | timestamp {text : List Char} {stamp : Timestamp} {fault : ValueFault} :
      Timestamp.ofText? text = some stamp → stamp.fault? = some fault →
      Unbuildable v .timestamp text fault

theorem valueResult_badValue {α : Type} {wrap : α → Content} {result : Except ValueFault α}
    {fault : ValueFault} :
    valueResult wrap result = .error (.badValue fault) ↔ result = .error fault := by
  cases result <;> simp [valueResult]

theorem scalarContent_badValue {v : Version} {mark : Mark} {type : NodeType} {anchored : Bool}
    {text : List Char} {fault : ValueFault} :
    scalarContent v mark type anchored text = .error (.badValue fault) ↔
      Unbuildable v type text fault := by
  constructor
  · intro failed
    unfold scalarContent at failed
    split at failed
    · exact nomatch failed
    · exact .bool (valueResult_badValue.mp failed)
    · exact .int (valueResult_badValue.mp failed)
    · exact .float (valueResult_badValue.mp failed)
    · exact nomatch failed
    · split at failed
      · rename_i stamp written
        have checked := valueResult_badValue.mp failed
        unfold Timestamp.check at checked
        split at checked
        · rename_i found
          cases checked
          exact .timestamp written found
        · exact nomatch checked
      · exact nomatch failed
    · split at failed <;> exact nomatch failed
    · exact nomatch failed
    · exact nomatch failed
    · exact nomatch failed
    · exact nomatch failed
  · rintro (failed | failed | failed | ⟨written, found⟩)
    · exact valueResult_badValue.mpr failed
    · exact valueResult_badValue.mpr failed
    · exact valueResult_badValue.mpr failed
    · simp [scalarContent, written, Timestamp.check, found, valueResult]

/-- The entry of a mapping with a single one. -/
def Node.single? : Node → Option (Node × Node)
  | .mapping _ _ [entry] => some entry
  | _ => none

variable (v : Version)

/-- What a key of a mapping holds. -/
def Node.name (key : Node) : Except Failure Content := (key.content v).bind (checkKey key)

/-- The building of an entry comes to its key, and to its value once the key has been read. -/
inductive Meets (read : Node → Except Failure Content) : Node × Node → Node → Prop
  | key (key value : Node) : Meets read (key, value) key
  | value {key value : Node} : Builds (read key) → Meets read (key, value) value

/-- The building of a node comes to a node directly inside it. Nothing is reached in a node of an
unknown type, which hides how what is inside it fails. -/
inductive Node.Reaches : Node → Node → Prop
  | item {mark : Mark} {before after : List Node} {item : Node} :
      Builds (contents v before) →
      Reaches (.sequence mark .sequence (before ++ item :: after)) item
  | ordered {mark : Mark} {before after : List Node} {item inner : Node} {entry : Node × Node} :
      Builds (singleEntries v before []) → item.single? = some entry →
      Meets (Node.content v) entry inner →
      Reaches (.sequence mark .orderedMapping (before ++ item :: after)) inner
  | pair {mark : Mark} {before after : List Node} {item inner : Node} {entry : Node × Node} :
      Builds (singles v before) → item.single? = some entry → Meets (Node.content v) entry inner →
      Reaches (.sequence mark .pairs (before ++ item :: after)) inner
  | merged {mark : Mark} {type : NodeType} {before after : List (Node × Node)} {key value : Node} :
      type = .mapping ∨ type = .set → mergedEntries v false before = .ok [] → key.isMerge = true →
      value.isMapping = true →
      Reaches (.mapping mark type (before ++ (key, value) :: after)) value
  | mergedItem {mark inner : Mark} {type innerType : NodeType} {before after : List (Node × Node)}
      {firsts others : List Node} {key item : Node} :
      type = .mapping ∨ type = .set → mergedEntries v false before = .ok [] → key.isMerge = true →
      Builds (mergedItems v firsts) → item.isMapping = true →
      Reaches
        (.mapping mark type
          (before ++ (key, .sequence inner innerType (firsts ++ item :: others)) :: after))
        item
  | own {mark : Mark} {type : NodeType} {before after : List (Node × Node)} {entry : Node × Node}
      {inner : Node} :
      type = .mapping ∨ type = .set → Builds (mergedEntries v false (before ++ entry :: after)) →
      Builds (ownEntries v before []) → entry.1.isMerge = false → Meets (Node.name v) entry inner →
      Reaches (.mapping mark type (before ++ entry :: after)) inner

variable {v} {fault : ValueFault}

@[simp]
theorem builds_ok {α : Type} {a : α} : Builds (.ok a) := ⟨a, rfl⟩

@[simp]
theorem not_builds_error {α : Type} {failure : Failure} : ¬ Builds (.error failure : Except Failure α) :=
  fun ⟨_, same⟩ => nomatch same

@[simp]
theorem map_eq_error {α β : Type} {f : α → β} {result : Except Failure α} {failure : Failure} :
    result.map f = .error failure ↔ result = .error failure := by
  cases result <;> simp [Except.map]

@[simp]
theorem builds_map {α β : Type} {f : α → β} {result : Except Failure α} :
    Builds (result.map f) ↔ Builds result := by
  cases result <;> simp [Builds, Except.map]

theorem contents_badValue {items : List Node} :
    contents v items = .error (.badValue fault) ↔
      ∃ before item after, items = before ++ item :: after ∧ Builds (contents v before) ∧
        item.content v = .error (.badValue fault) := by
  apply first_bad_plain (fun items => contents v items = .error (.badValue fault))
    (fun items => Builds (contents v items)) (fun item => Builds (item.content v))
  · simp [contents]
  · exact ⟨[], contents.eq_1 v⟩
  · intro item rest
    rw [contents]
    cases item.content v <;> simp
  · intro item rest
    rw [contents]
    cases item.content v <;> simp

theorem mergedItems_badValue {items : List Node} :
    mergedItems v items = .error (.badValue fault) ↔
      ∃ before item after, items = before ++ item :: after ∧ Builds (mergedItems v before) ∧
        item.isMapping = true ∧ item.content v = .error (.badValue fault) := by
  apply first_bad_plain (fun items => mergedItems v items = .error (.badValue fault))
    (fun items => Builds (mergedItems v items))
    (fun item => item.isMapping = true ∧ Builds (item.content v))
    (fun item => item.isMapping = true ∧ item.content v = .error (.badValue fault))
  · simp [mergedItems]
  · exact ⟨[], mergedItems.eq_1 v⟩
  · intro item rest
    rw [mergedItems]
    cases item.isMapping <;> cases item.content v <;>
      simp [Node.failure, Failure.at]
  · intro item rest
    rw [mergedItems]
    cases item.isMapping <;> cases item.content v <;> simp

theorem single?_eq_some {node : Node} {entry : Node × Node} :
    node.single? = some entry ↔ ∃ mark type, node = .mapping mark type [entry] := by
  constructor
  · intro single
    unfold Node.single? at single
    split at single
    · cases single
      exact ⟨_, _, rfl⟩
    · exact nomatch single
  · rintro ⟨mark, type, rfl⟩
    rfl

theorem name_badValue {key : Node} :
    key.name v = .error (.badValue fault) ↔ key.content v = .error (.badValue fault) := by
  unfold Node.name
  cases key.content v with
  | error failure => rfl
  | ok content =>
    simp only [Except.bind, reduceCtorEq, iff_false]
    intro failed
    unfold checkKey at failed
    split at failed
    · exact nomatch failed
    · split at failed <;> exact nomatch failed

/-- An entry fails by its key, or by its value where the key is in order. -/
theorem meets_badValue {read : Node → Except Failure Content} {key value : Node}
    (same : read key = .error (.badValue fault) ↔ key.content v = .error (.badValue fault)) :
    (∃ inner, Meets read (key, value) inner ∧ inner.content v = .error (.badValue fault)) ↔
      read key = .error (.badValue fault) ∨
        Builds (read key) ∧ value.content v = .error (.badValue fault) := by
  constructor
  · rintro ⟨inner, (_ | built), failed⟩
    · exact Or.inl (same.mpr failed)
    · exact Or.inr ⟨built, failed⟩
  · rintro (failed | ⟨built, failed⟩)
    · exact ⟨key, .key key value, same.mp failed⟩
    · exact ⟨value, .value built, failed⟩

theorem singles_cons {item : Node} {rest : List Node} :
    singles v (item :: rest) =
      match item.single? with
      | none => .error (item.failure .wrongKind)
      | some (key, value) =>
        match key.content v, value.content v with
        | .error failure, _ => .error failure
        | .ok _, .error failure => .error failure
        | .ok name, .ok content => (singles v rest).map ((name, content) :: ·) := by
  cases single : item.single? with
  | none =>
    rw [singles.eq_3]
    rintro mark type key value rfl
    exact nomatch single
  | some entry =>
    obtain ⟨key, value⟩ := entry
    obtain ⟨mark, type, rfl⟩ := single?_eq_some.mp single
    exact singles.eq_2 v mark type key value rest

theorem singles_badValue {items : List Node} :
    singles v items = .error (.badValue fault) ↔
      ∃ before item after, items = before ++ item :: after ∧ Builds (singles v before) ∧
        ∃ entry ∈ item.single?, ∃ inner, Meets (Node.content v) entry inner ∧
          inner.content v = .error (.badValue fault) := by
  apply first_bad_plain (fun items => singles v items = .error (.badValue fault))
    (fun items => Builds (singles v items))
    (fun item => ∃ entry ∈ item.single?, Builds (entry.1.content v) ∧ Builds (entry.2.content v))
  · simp [singles]
  · exact ⟨[], singles.eq_1 v⟩
  · intro item rest
    rw [singles_cons]
    cases item.single? with
    | none => simp [Node.failure, Failure.at]
    | some entry =>
      obtain ⟨key, value⟩ := entry
      simp only [Option.mem_some_iff, exists_eq_left', meets_badValue Iff.rfl]
      cases key.content v <;> cases value.content v <;> simp
  · intro item rest
    rw [singles_cons]
    cases item.single? with
    | none => simp
    | some entry =>
      obtain ⟨key, value⟩ := entry
      simp only [Option.mem_some_iff, exists_eq_left']
      cases key.content v <;> cases value.content v <;> simp

theorem addEntry_ne_badValue (fault : ValueFault) (mark : Mark) (entry : Content × Content)
    (known : List (Content × Content)) : addEntry mark entry known ≠ .error (.badValue fault) := by
  unfold addEntry
  split <;> simp [Failure.at]

theorem singleEntries_cons {item : Node} {rest : List Node} {known : List (Content × Content)} :
    singleEntries v (item :: rest) known =
      match item.single? with
      | none => .error (item.failure .wrongKind)
      | some (key, value) =>
        match key.content v, value.content v with
        | .error failure, _ => .error failure
        | .ok _, .error failure => .error failure
        | .ok name, .ok content =>
          match addEntry key.mark (name, content) known with
          | .error failure => .error failure
          | .ok known => singleEntries v rest known := by
  cases single : item.single? with
  | none =>
    rw [singleEntries.eq_3]
    rintro mark type key value rfl
    exact nomatch single
  | some entry =>
    obtain ⟨key, value⟩ := entry
    obtain ⟨mark, type, rfl⟩ := single?_eq_some.mp single
    exact singleEntries.eq_2 v known mark type key value rest

/-- What comes of adding an entry whose name and content may fail, and of going on from there. -/
def added (mark : Mark) (known : List (Content × Content)) (name content : Except Failure Content)
    (next : List (Content × Content) → Except Failure (List (Content × Content))) :
    Except Failure (List (Content × Content)) :=
  match name, content with
  | .error failure, _ => .error failure
  | .ok _, .error failure => .error failure
  | .ok name, .ok content =>
    match addEntry mark (name, content) known with
    | .error failure => .error failure
    | .ok known => next known

section

variable {mark : Mark} {known : List (Content × Content)} {name content : Except Failure Content}
  {next : List (Content × Content) → Except Failure (List (Content × Content))}

/-- An entry fails by its name, or by its content where the name is in order, or else further on. -/
theorem added_badValue :
    added mark known name content next = .error (.badValue fault) ↔
      (name = .error (.badValue fault) ∨ Builds name ∧ content = .error (.badValue fault)) ∨
        ∃ later, (∃ n c, name = .ok n ∧ content = .ok c ∧ addEntry mark (n, c) known = .ok later) ∧
          next later = .error (.badValue fault) := by
  cases name with
  | error failure => simp [added]
  | ok name =>
    cases content with
    | error failure => simp [added]
    | ok content =>
      have refused := addEntry_ne_badValue fault mark (name, content) known
      cases result : addEntry mark (name, content) known <;> simp_all [added]

theorem builds_added :
    Builds (added mark known name content next) ↔
      ∃ later, (∃ n c, name = .ok n ∧ content = .ok c ∧ addEntry mark (n, c) known = .ok later) ∧
        Builds (next later) := by
  cases name with
  | error failure => simp [added]
  | ok name =>
    cases content with
    | error failure => simp [added]
    | ok content => cases result : addEntry mark (name, content) known <;> simp_all [added]

end

theorem singleEntries_badValue {items : List Node} {known : List (Content × Content)} :
    singleEntries v items known = .error (.badValue fault) ↔
      ∃ before item after, items = before ++ item :: after ∧
        Builds (singleEntries v before known) ∧
        ∃ entry ∈ item.single?, ∃ inner, Meets (Node.content v) entry inner ∧
          inner.content v = .error (.badValue fault) := by
  apply first_bad (fun known items => singleEntries v items known = .error (.badValue fault))
    (fun known items => Builds (singleEntries v items known))
    (fun known item later => ∃ entry ∈ item.single?, ∃ name content, entry.1.content v = .ok name ∧
      entry.2.content v = .ok content ∧ addEntry entry.1.mark (name, content) known = .ok later)
  · simp [singleEntries]
  · exact fun known => ⟨known, singleEntries.eq_1 v known⟩
  · intro known item rest
    rw [singleEntries_cons]
    cases item.single? with
    | none => simp [Node.failure, Failure.at]
    | some entry =>
      obtain ⟨key, value⟩ := entry
      simp only [Option.mem_some_iff, exists_eq_left', meets_badValue Iff.rfl]
      exact added_badValue
  · intro known item rest
    rw [singleEntries_cons]
    cases item.single? with
    | none => simp
    | some entry =>
      obtain ⟨key, value⟩ := entry
      simp only [Option.mem_some_iff, exists_eq_left']
      exact builds_added

theorem ownEntries_badValue {entries : List (Node × Node)} {known : List (Content × Content)} :
    ownEntries v entries known = .error (.badValue fault) ↔
      ∃ before entry after, entries = before ++ entry :: after ∧ Builds (ownEntries v before known) ∧
        entry.1.isMerge = false ∧ ∃ inner, Meets (Node.name v) entry inner ∧
          inner.content v = .error (.badValue fault) := by
  apply first_bad (fun known entries => ownEntries v entries known = .error (.badValue fault))
    (fun known entries => Builds (ownEntries v entries known))
    (fun known entry later => entry.1.isMerge = true ∧ later = known ∨ entry.1.isMerge = false ∧
      ∃ name content, entry.1.name v = .ok name ∧ entry.2.content v = .ok content ∧
        addEntry entry.1.mark (name, content) known = .ok later)
  · simp [ownEntries]
  · exact fun known => ⟨known, ownEntries.eq_1 v known⟩
  · intro known entry rest
    obtain ⟨key, value⟩ := entry
    rw [ownEntries, ← Node.name, meets_badValue name_badValue]
    cases key.isMerge with
    | true => simp
    | false =>
      simp only [Bool.false_eq_true, if_false, false_and, false_or, true_and]
      exact added_badValue
  · intro known entry rest
    obtain ⟨key, value⟩ := entry
    rw [ownEntries, ← Node.name]
    cases key.isMerge with
    | true => simp
    | false =>
      simp only [Bool.false_eq_true, if_false, false_and, false_or, true_and]
      exact builds_added

/-- What a key that asks for a merge brings in. -/
def mergedValue (v : Version) (value : Node) : Except Failure (List (List (Content × Content))) :=
  if value.isMapping then (value.content v).map fun content => [content.entries]
  else
    match value with
    | .sequence _ _ items => mergedItems v items
    | other => .error (other.failure .mergeOfOther)

theorem mergedEntries_cons {hasMerged : Bool} {key value : Node} {rest : List (Node × Node)} :
    mergedEntries v hasMerged ((key, value) :: rest) =
      if !key.isMerge then mergedEntries v hasMerged rest
      else if hasMerged then .error (key.failure .repeatedKey)
      else
        match mergedValue v value with
        | .error failure => .error failure
        | .ok merged => (mergedEntries v (!merged.isEmpty) rest).map (merged ++ ·) := by
  cases value <;> rfl

theorem mergedEntries_nil {hasMerged : Bool} : mergedEntries v hasMerged [] = .ok [] := rfl

/-- Where something has been merged already, the merges that follow fail without being read. -/
theorem mergedEntries_true_ne_badValue (fault : ValueFault) (entries : List (Node × Node)) :
    mergedEntries v true entries ≠ .error (.badValue fault) := by
  induction entries with
  | nil => simp [mergedEntries_nil]
  | cons entry rest ih =>
    obtain ⟨key, value⟩ := entry
    rw [mergedEntries_cons]
    cases key.isMerge with
    | true => simp [Node.failure, Failure.at]
    | false => simpa using ih

theorem mergedEntries_badValue {entries : List (Node × Node)} :
    mergedEntries v false entries = .error (.badValue fault) ↔
      ∃ before entry after, entries = before ++ entry :: after ∧
        mergedEntries v false before = .ok [] ∧ entry.1.isMerge = true ∧
          mergedValue v entry.2 = .error (.badValue fault) := by
  apply first_bad_plain (fun entries => mergedEntries v false entries = .error (.badValue fault))
    (fun entries => mergedEntries v false entries = .ok [])
    (fun entry => entry.1.isMerge = true → mergedValue v entry.2 = .ok [])
  · simp [mergedEntries_nil]
  · exact mergedEntries_nil
  · intro entry rest
    obtain ⟨key, value⟩ := entry
    rw [mergedEntries_cons]
    cases key.isMerge with
    | false => simp
    | true =>
      cases mergedValue v value with
      | error failure => simp
      | ok merged =>
        -- A merge that brings something in keeps the later ones from being read.
        cases merged <;> simp [mergedEntries_true_ne_badValue]
  · intro entry rest
    obtain ⟨key, value⟩ := entry
    rw [mergedEntries_cons]
    cases key.isMerge with
    | false => simp
    | true =>
      cases mergedValue v value with
      | error failure => simp
      | ok merged =>
        cases merged with
        | nil => cases later : mergedEntries v false rest <;> simp [Except.map, later]
        | cons first others =>
          cases later : mergedEntries v true rest <;> simp [Except.map, later]

theorem mergedValue_badValue {value : Node} :
    mergedValue v value = .error (.badValue fault) ↔
      (value.isMapping = true ∧ value.content v = .error (.badValue fault)) ∨
        ∃ mark type items, value = .sequence mark type items ∧
          mergedItems v items = .error (.badValue fault) := by
  unfold mergedValue
  cases value with
  | sequence mark type items =>
    constructor
    · exact fun failed => Or.inr ⟨mark, type, items, rfl, failed⟩
    · rintro (⟨kind, _⟩ | ⟨_, _, _, same, failed⟩)
      · exact nomatch kind
      · cases same
        exact failed
  | _ => simp [Node.isMapping, Node.failure, Failure.at]

theorem joined_badValue {merged : Except Failure (List (List (Content × Content)))}
    {own : Except Failure (List (Content × Content))} :
    joined merged own = .error (.badValue fault) ↔
      merged = .error (.badValue fault) ∨ Builds merged ∧ own = .error (.badValue fault) := by
  cases merged <;> cases own <;> simp [joined]

theorem hideFailure_ne_badValue {α : Type} {mark : Mark} {result : Except Failure α} :
    hideFailure mark result ≠ .error (.badValue fault) := by
  cases result <;> simp [hideFailure, Failure.at]

theorem content_sequence {mark : Mark} {type : NodeType} {items : List Node} :
    (Node.sequence mark type items).content v =
      match type with
      | .sequence => (contents v items).map .sequence
      | .unknown => (hideFailure mark (contents v items)).map .sequence
      | .orderedMapping => (singleEntries v items []).map .mapping
      | .pairs => (singles v items).map .pairs
      | _ => .error (.at .wrongKind mark) := rfl

theorem content_mapping {mark : Mark} {type : NodeType} {entries : List (Node × Node)} :
    (Node.mapping mark type entries).content v =
      let all := joined (mergedEntries v false entries) (ownEntries v entries [])
      match type with
      | .mapping => all.map .mapping
      | .unknown => (hideFailure mark all).map .mapping
      | .set => all.map fun entries => .set (entries.map (·.1))
      | _ => .error (.at .wrongKind mark) := rfl

theorem sequence_badValue {mark : Mark} {type : NodeType} {items : List Node} :
    (Node.sequence mark type items).content v = .error (.badValue fault) ↔
      ∃ inner, (Node.sequence mark type items).Reaches v inner ∧
        inner.content v = .error (.badValue fault) := by
  constructor
  · intro failed
    rw [content_sequence] at failed
    split at failed
    · obtain ⟨before, item, after, rfl, built, failed⟩ := contents_badValue.mp (map_eq_error.mp failed)
      exact ⟨item, .item built, failed⟩
    · exact absurd (map_eq_error.mp failed) hideFailure_ne_badValue
    · obtain ⟨before, item, after, rfl, built, entry, single, inner, met, failed⟩ :=
        singleEntries_badValue.mp (map_eq_error.mp failed)
      exact ⟨inner, .ordered built single met, failed⟩
    · obtain ⟨before, item, after, rfl, built, entry, single, inner, met, failed⟩ :=
        singles_badValue.mp (map_eq_error.mp failed)
      exact ⟨inner, .pair built single met, failed⟩
    · exact nomatch failed
  · rintro ⟨inner, reached, failed⟩
    rw [content_sequence]
    cases reached with
    | item built => exact map_eq_error.mpr (contents_badValue.mpr ⟨_, _, _, rfl, built, failed⟩)
    | ordered built single met =>
      exact map_eq_error.mpr
        (singleEntries_badValue.mpr ⟨_, _, _, rfl, built, _, single, inner, met, failed⟩)
    | pair built single met =>
      exact map_eq_error.mpr
        (singles_badValue.mpr ⟨_, _, _, rfl, built, _, single, inner, met, failed⟩)

/-- The entries of a mapping fail by a value where a merge does, or an entry of its own after all
merges. -/
theorem joined_entries_badValue {mark : Mark} {type : NodeType} {entries : List (Node × Node)}
    (builds : type = .mapping ∨ type = .set) :
    joined (mergedEntries v false entries) (ownEntries v entries []) = .error (.badValue fault) ↔
      ∃ inner, (Node.mapping mark type entries).Reaches v inner ∧
        inner.content v = .error (.badValue fault) := by
  rw [joined_badValue, mergedEntries_badValue, ownEntries_badValue]
  constructor
  · rintro (⟨before, ⟨key, value⟩, after, rfl, unmerged, isMerge, failed⟩ |
      ⟨merged, before, entry, after, rfl, built, isOwn, inner, met, failed⟩)
    · rcases mergedValue_badValue.mp failed with
        ⟨isMapping, failed⟩ | ⟨inner, innerType, items, rfl, failed⟩
      · exact ⟨value, .merged builds unmerged isMerge isMapping, failed⟩
      · obtain ⟨firsts, item, others, rfl, built, isMapping, failed⟩ := mergedItems_badValue.mp failed
        exact ⟨item, .mergedItem builds unmerged isMerge built isMapping, failed⟩
    · exact ⟨inner, .own builds merged built isOwn met, failed⟩
  · rintro ⟨inner, reached, failed⟩
    cases reached with
    | merged _ unmerged isMerge isMapping =>
      exact Or.inl ⟨_, _, _, rfl, unmerged, isMerge,
        mergedValue_badValue.mpr (Or.inl ⟨isMapping, failed⟩)⟩
    | mergedItem _ unmerged isMerge built isMapping =>
      refine Or.inl ⟨_, _, _, rfl, unmerged, isMerge,
        mergedValue_badValue.mpr (Or.inr ⟨_, _, _, rfl, ?_⟩)⟩
      exact mergedItems_badValue.mpr ⟨_, _, _, rfl, built, isMapping, failed⟩
    | own _ merged built isOwn met =>
      exact Or.inr ⟨merged, _, _, _, rfl, built, isOwn, inner, met, failed⟩

theorem mapping_badValue {mark : Mark} {type : NodeType} {entries : List (Node × Node)} :
    (Node.mapping mark type entries).content v = .error (.badValue fault) ↔
      ∃ inner, (Node.mapping mark type entries).Reaches v inner ∧
        inner.content v = .error (.badValue fault) := by
  by_cases builds : type = .mapping ∨ type = .set
  · rw [← joined_entries_badValue builds, content_mapping]
    rcases builds with rfl | rfl <;> exact map_eq_error
  · constructor
    · intro failed
      rw [content_mapping] at failed
      split at failed
      · exact absurd (Or.inl rfl) builds
      · exact absurd (map_eq_error.mp failed) hideFailure_ne_badValue
      · exact absurd (Or.inr rfl) builds
      · exact nomatch failed
    · rintro ⟨inner, reached, _⟩
      cases reached <;> exact absurd ‹_› builds

/-- A node is a scalar that has no value. -/
def Node.IsUnbuildable (v : Version) (fault : ValueFault) (node : Node) : Prop :=
  ∃ mark type anchored text, node = .scalar mark type anchored text ∧ Unbuildable v type text fault

/-- The content of a node fails by a value exactly where the node is a scalar that has none, or where
its building reaches a node that fails so. -/
theorem content_badValue_step {node : Node} :
    node.content v = .error (.badValue fault) ↔
      node.IsUnbuildable v fault ∨
        ∃ inner, node.Reaches v inner ∧ inner.content v = .error (.badValue fault) := by
  cases node with
  | scalar mark type anchored text =>
    rw [Node.content, scalarContent_badValue]
    constructor
    · exact fun bad => Or.inl ⟨mark, type, anchored, text, rfl, bad⟩
    · rintro (⟨_, _, _, _, same, bad⟩ | ⟨inner, reached, _⟩)
      · cases same
        exact bad
      · exact nomatch reached
  | enclosing mark =>
    constructor
    · exact fun failed => nomatch failed
    · rintro (⟨_, _, _, _, same, _⟩ | ⟨inner, reached, _⟩)
      · exact nomatch same
      · exact nomatch reached
  | sequence mark type items => simp [sequence_badValue, Node.IsUnbuildable]
  | mapping mark type entries => simp [mapping_badValue, Node.IsUnbuildable]

theorem Meets.sizeOf_lt {read : Node → Except Failure Content} {entry : Node × Node} {inner : Node}
    (met : Meets read entry inner) : sizeOf inner < sizeOf entry := by
  cases met <;> simp only [Prod.mk.sizeOf_spec] <;> omega

theorem single?_sizeOf_lt {node : Node} {entry : Node × Node} (single : node.single? = some entry) :
    sizeOf entry < sizeOf node := by
  obtain ⟨mark, type, rfl⟩ := single?_eq_some.mp single
  simp only [Node.mapping.sizeOf_spec, List.cons.sizeOf_spec]
  omega

/-- What is reached in a node is smaller. -/
theorem Node.Reaches.sizeOf_lt {node inner : Node} (reached : node.Reaches v inner) :
    sizeOf inner < sizeOf node := by
  cases reached with
  | @item _ before after item built =>
    have inside := sizeOf_lt_middle before after inner
    simp only [Node.sequence.sizeOf_spec]
    omega
  | @ordered _ before after item _ _ built single met =>
    have inside := sizeOf_lt_middle before after item
    have only := single?_sizeOf_lt single
    have part := met.sizeOf_lt
    simp only [Node.sequence.sizeOf_spec]
    omega
  | @pair _ before after item _ _ built single met =>
    have inside := sizeOf_lt_middle before after item
    have only := single?_sizeOf_lt single
    have part := met.sizeOf_lt
    simp only [Node.sequence.sizeOf_spec]
    omega
  | @merged _ _ before after key value =>
    have inside := sizeOf_lt_middle before after (key, inner)
    simp only [Node.mapping.sizeOf_spec, Prod.mk.sizeOf_spec] at *
    omega
  | @mergedItem _ mark _ type before after firsts others key item =>
    have inside := sizeOf_lt_middle before after (key, .sequence mark type (firsts ++ inner :: others))
    have part := sizeOf_lt_middle firsts others inner
    simp only [Node.mapping.sizeOf_spec, Node.sequence.sizeOf_spec, Prod.mk.sizeOf_spec] at *
    omega
  | @own _ _ before after entry _ _ _ _ _ met =>
    have inside := sizeOf_lt_middle before after entry
    have part := met.sizeOf_lt
    simp only [Node.mapping.sizeOf_spec]
    omega

/-- The content of a node fails by a value exactly where its building reaches, step by step, a scalar
that has none. -/
theorem content_badValue_iff {node : Node} :
    node.content v = .error (.badValue fault) ↔
      ∃ inner, Relation.ReflTransGen (Node.Reaches v) node inner ∧ inner.IsUnbuildable v fault :=
  reaches_bad (fun node => node.content v = .error (.badValue fault)) (Node.IsUnbuildable v fault)
    (Node.Reaches v) Node.Reaches.sizeOf_lt (fun _ => content_badValue_step) node

end PayloadCheck.Yaml
