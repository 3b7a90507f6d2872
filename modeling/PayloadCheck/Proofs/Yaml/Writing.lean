import PayloadCheck.Proofs.Json.LongInteger
import PayloadCheck.Proofs.Yaml.Building
import PayloadCheck.Yaml.Value

namespace PayloadCheck.Yaml

open Json

namespace Content

/-- A content is an integer with too many digits, or holds one at some depth, be it in a key. -/
inductive HoldsLong : Content → Prop
  | here {n : Int} : IsLong n → HoldsLong (.int n)
  | item {item : Content} {items : List Content} :
      item ∈ items → HoldsLong item → HoldsLong (.sequence items)
  | member {item : Content} {items : List Content} : item ∈ items → HoldsLong item → HoldsLong (.set items)
  | key {entry : Content × Content} {entries : List (Content × Content)} :
      entry ∈ entries → HoldsLong entry.1 → HoldsLong (.mapping entries)
  | value {entry : Content × Content} {entries : List (Content × Content)} :
      entry ∈ entries → HoldsLong entry.2 → HoldsLong (.mapping entries)
  | pairKey {entry : Content × Content} {entries : List (Content × Content)} :
      entry ∈ entries → HoldsLong entry.1 → HoldsLong (.pairs entries)
  | pairValue {entry : Content × Content} {entries : List (Content × Content)} :
      entry ∈ entries → HoldsLong entry.2 → HoldsLong (.pairs entries)

theorem holdsLong_sequence {items : List Content} :
    (Content.sequence items).HoldsLong ↔ ∃ item ∈ items, item.HoldsLong :=
  ⟨fun | .item among held => ⟨_, among, held⟩, fun ⟨_, among, held⟩ => .item among held⟩

theorem holdsLong_set {items : List Content} :
    (Content.set items).HoldsLong ↔ ∃ item ∈ items, item.HoldsLong :=
  ⟨fun | .member among held => ⟨_, among, held⟩, fun ⟨_, among, held⟩ => .member among held⟩

theorem holdsLong_mapping {entries : List (Content × Content)} :
    (Content.mapping entries).HoldsLong ↔
      ∃ entry ∈ entries, entry.1.HoldsLong ∨ entry.2.HoldsLong := by
  constructor
  · rintro (_ | _ | _ | ⟨among, held⟩ | ⟨among, held⟩)
    · exact ⟨_, among, Or.inl held⟩
    · exact ⟨_, among, Or.inr held⟩
  · rintro ⟨entry, among, held | held⟩
    · exact .key among held
    · exact .value among held

theorem holdsLong_pairs {entries : List (Content × Content)} :
    (Content.pairs entries).HoldsLong ↔
      ∃ entry ∈ entries, entry.1.HoldsLong ∨ entry.2.HoldsLong := by
  constructor
  · rintro (_ | _ | _ | _ | _ | ⟨among, held⟩ | ⟨among, held⟩)
    · exact ⟨_, among, Or.inl held⟩
    · exact ⟨_, among, Or.inr held⟩
  · rintro ⟨entry, among, held | held⟩
    · exact .pairKey among held
    · exact .pairValue among held

mutual

theorem shown?_eq_none (c : Content) : c.shown? = none ↔ c.HoldsLong := by
  cases c with
  | int n =>
    simp only [shown?, show?_eq_none, Value.holdsLong_int]
    exact ⟨.here, fun | .here long => long⟩
  | sequence items =>
    simp only [shown?, Option.map_eq_none_iff, shownItems?_eq_none items, holdsLong_sequence]
  | set items => simp only [shown?, Option.map_eq_none_iff, shownItems?_eq_none items, holdsLong_set]
  | mapping entries =>
    simp only [shown?, Option.map_eq_none_iff, shownEntries?_eq_none entries, holdsLong_mapping]
  | pairs entries =>
    simp only [shown?, Option.map_eq_none_iff, shownEntries?_eq_none entries, holdsLong_pairs]
  | _ => exact ⟨fun written => by simp [shown?, show?] at written, fun held => nomatch held⟩

theorem shownItems?_eq_none (items : List Content) :
    shownItems? items = none ↔ ∃ item ∈ items, item.HoldsLong := by
  cases items with
  | nil => simp [shownItems?]
  | cons item rest =>
    simp only [shownItems?, List.mem_cons, exists_eq_or_imp, ← shown?_eq_none item,
      ← shownItems?_eq_none rest]
    cases item.shown? <;> cases shownItems? rest <;> simp

theorem shownEntries?_eq_none (entries : List (Content × Content)) :
    shownEntries? entries = none ↔ ∃ entry ∈ entries, entry.1.HoldsLong ∨ entry.2.HoldsLong := by
  cases entries with
  | nil => simp [shownEntries?]
  | cons entry rest =>
    obtain ⟨key, value⟩ := entry
    simp only [shownEntries?, List.mem_cons, exists_eq_or_imp, ← shown?_eq_none key,
      ← shown?_eq_none value, ← shownEntries?_eq_none rest]
    cases key.shown? <;> cases value.shown? <;> cases shownEntries? rest <;> simp

end

theorem keyText?_eq_none {key : Content} : key.keyText? = none ↔ key.HoldsLong := by
  cases key with
  | text s => exact ⟨fun written => by simp [keyText?] at written, fun held => nomatch held⟩
  | sequence items =>
    simp only [keyText?, Option.map_eq_none_iff, shownItems?_eq_none, holdsLong_sequence]
  | _ => simp only [keyText?, shown?_eq_none]

/-- The writing of a content comes to a content directly inside it. -/
inductive Reaches : Content → Content → Prop
  | item {before after : List Content} {item : Content} :
      Builds (values before) → Reaches (.sequence (before ++ item :: after)) item
  | value {before after : List (Content × Content)} {entry : Content × Content} :
      Builds (members before) → ¬ entry.1.HoldsLong → Reaches (.mapping (before ++ entry :: after)) entry.2

/-- A text that is asked for at a content cannot be written: that of a key, of a set, or of pairs. -/
inductive Unwritable : Content → Prop
  | key {before after : List (Content × Content)} {entry : Content × Content} :
      Builds (members before) → entry.1.HoldsLong → Unwritable (.mapping (before ++ entry :: after))
  | set {items : List Content} : (Content.set items).HoldsLong → Unwritable (.set items)
  | pairs {entries : List (Content × Content)} :
      (Content.pairs entries).HoldsLong → Unwritable (.pairs entries)

variable {fault : ValueFault}

theorem written_badValue {α : Type} {text : Option α} :
    written text = .error (.badValue fault) ↔ text = none ∧ fault = .tooLongInteger := by
  cases text <;> simp [written, eq_comm]

theorem values_badValue {items : List Content} :
    values items = .error (.badValue fault) ↔
      ∃ before item after, items = before ++ item :: after ∧ Builds (values before) ∧
        item.value = .error (.badValue fault) := by
  apply first_bad_plain (fun items => values items = .error (.badValue fault))
    (fun items => Builds (values items)) (fun item => Builds item.value)
  · simp [values]
  · exact ⟨[], values.eq_1⟩
  · intro item rest
    rw [values]
    cases item.value <;> simp
  · intro item rest
    rw [values]
    cases item.value <;> simp

theorem members_badValue {entries : List (Content × Content)} :
    members entries = .error (.badValue fault) ↔
      ∃ before entry after, entries = before ++ entry :: after ∧ Builds (members before) ∧
        (entry.1.HoldsLong ∧ fault = .tooLongInteger ∨
          ¬ entry.1.HoldsLong ∧ entry.2.value = .error (.badValue fault)) := by
  apply first_bad_plain (fun entries => members entries = .error (.badValue fault))
    (fun entries => Builds (members entries))
    (fun entry => ¬ entry.1.HoldsLong ∧ Builds entry.2.value)
  · simp [members]
  · exact ⟨[], members.eq_1⟩
  · intro entry rest
    obtain ⟨key, content⟩ := entry
    rw [members, ← keyText?_eq_none]
    cases key.keyText? <;> cases content.value <;> simp [written, eq_comm]
  · intro entry rest
    obtain ⟨key, content⟩ := entry
    rw [members, ← keyText?_eq_none]
    cases key.keyText? <;> cases content.value <;> simp [written]

/-- The value of a content fails by a value exactly where a text that is asked for there cannot be
written, or where its writing reaches a content that fails so. -/
theorem value_badValue_step {c : Content} :
    c.value = .error (.badValue fault) ↔
      (c.Unwritable ∧ fault = .tooLongInteger) ∨
        ∃ inner, c.Reaches inner ∧ inner.value = .error (.badValue fault) := by
  constructor
  · intro failed
    cases c with
    | sequence items =>
      obtain ⟨before, item, after, rfl, built, failed⟩ := values_badValue.mp (map_eq_error.mp failed)
      exact Or.inr ⟨item, .item built, failed⟩
    | mapping entries =>
      obtain ⟨before, entry, after, rfl, built, ⟨long, rfl⟩ | ⟨short, failed⟩⟩ :=
        members_badValue.mp (map_eq_error.mp failed)
      · exact Or.inl ⟨.key built long, rfl⟩
      · exact Or.inr ⟨entry.2, .value built short, failed⟩
    | set items =>
      obtain ⟨unwritten, rfl⟩ := written_badValue.mp (map_eq_error.mp failed)
      exact Or.inl ⟨.set ((shown?_eq_none (.set items)).mp unwritten), rfl⟩
    | pairs entries =>
      obtain ⟨unwritten, rfl⟩ := written_badValue.mp (map_eq_error.mp failed)
      rw [shownEntries?_eq_none, ← holdsLong_pairs] at unwritten
      exact Or.inl ⟨.pairs unwritten, rfl⟩
    | _ => exact nomatch failed
  · rintro (⟨unwritten, rfl⟩ | ⟨inner, reached, failed⟩)
    · cases unwritten with
      | key built long =>
        exact map_eq_error.mpr (members_badValue.mpr ⟨_, _, _, rfl, built, Or.inl ⟨long, rfl⟩⟩)
      | @set items long =>
        have unwritten := (shown?_eq_none (.set items)).mpr long
        exact map_eq_error.mpr (written_badValue.mpr ⟨unwritten, rfl⟩)
      | pairs long =>
        rw [holdsLong_pairs, ← shownEntries?_eq_none] at long
        exact map_eq_error.mpr (written_badValue.mpr ⟨long, rfl⟩)
    · cases reached with
      | item built => exact map_eq_error.mpr (values_badValue.mpr ⟨_, _, _, rfl, built, failed⟩)
      | value built short =>
        exact map_eq_error.mpr (members_badValue.mpr ⟨_, _, _, rfl, built, Or.inr ⟨short, failed⟩⟩)

theorem Reaches.sizeOf_lt {c inner : Content} (reached : c.Reaches inner) :
    sizeOf inner < sizeOf c := by
  cases reached with
  | @item before after _ _ =>
    have inside := sizeOf_lt_middle before after inner
    simp only [Content.sequence.sizeOf_spec]
    omega
  | @value before after entry _ _ =>
    have inside := sizeOf_lt_middle before after entry
    obtain ⟨key, value⟩ := entry
    simp only [Content.mapping.sizeOf_spec, Prod.mk.sizeOf_spec] at *
    omega

/-- The value of a content fails by a value exactly where its writing reaches, step by step, a content
for which a text is asked that cannot be written. -/
theorem value_badValue_iff {c : Content} :
    c.value = .error (.badValue fault) ↔
      fault = .tooLongInteger ∧ ∃ inner, Relation.ReflTransGen Reaches c inner ∧ inner.Unwritable := by
  rw [reaches_bad (fun c : Content => c.value = .error (.badValue fault))
    (fun c => c.Unwritable ∧ fault = .tooLongInteger) Reaches Reaches.sizeOf_lt
    (fun _ => value_badValue_step)]
  constructor
  · rintro ⟨inner, reached, unwritten, same⟩
    exact ⟨same, inner, reached, unwritten⟩
  · rintro ⟨same, inner, reached, unwritten⟩
    exact ⟨inner, reached, unwritten, same⟩

end Content

end PayloadCheck.Yaml
