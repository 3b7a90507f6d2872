import PayloadCheck.Proofs.Document.NamesOnce
import PayloadCheck.Proofs.Json.Counted
import PayloadCheck.Proofs.Yaml.Writing

namespace PayloadCheck.Yaml

open Json Number

namespace Content

/-- A double counts in a content unless it stands under a key whose text comes again. -/
inductive Counts (x : Binary64) : Content → Prop
  | here : Counts x (.float x)
  | item {items : List Content} {c : Content} : c ∈ items → Counts x c → Counts x (.sequence items)
  | value {entries after : List (Content × Content)} {entry : Content × Content} :
      entry :: after <:+ entries → (∀ later ∈ after, later.1.keyText? ≠ entry.1.keyText?) →
      Counts x entry.2 → Counts x (.mapping entries)

variable {x : Binary64}

theorem counts_sequence {items : List Content} :
    (Content.sequence items).Counts x ↔ ∃ c ∈ items, c.Counts x :=
  ⟨fun | .item among counts => ⟨_, among, counts⟩, fun ⟨_, among, counts⟩ => .item among counts⟩

theorem counts_mapping {entries : List (Content × Content)} :
    (Content.mapping entries).Counts x ↔ ∃ entry after, entry :: after <:+ entries ∧
      (∀ later ∈ after, later.1.keyText? ≠ entry.1.keyText?) ∧ entry.2.Counts x :=
  ⟨fun | .value ending last counts => ⟨_, _, ending, last, counts⟩,
    fun ⟨_, _, ending, last, counts⟩ => .value ending last counts⟩

theorem members_cons {key content : Content} {rest : List (Content × Content)}
    {made : List (String × Json.Value)} (built : members ((key, content) :: rest) = .ok made) :
    ∃ name v others, key.keyText? = some name ∧ content.value = .ok v ∧ members rest = .ok others ∧
      made = (String.ofList name, v) :: others := by
  rw [members] at built
  cases named : key.keyText? with
  | none =>
    rw [named] at built
    exact nomatch built
  | some name =>
    cases first : content.value with
    | error failure =>
      rw [named, first] at built
      exact nomatch built
    | ok v =>
      rw [named, first] at built
      obtain ⟨others, all, rfl⟩ := map_eq_ok built
      exact ⟨name, v, others, rfl, rfl, all, rfl⟩

theorem members_names {entries : List (Content × Content)} {made : List (String × Json.Value)}
    (built : members entries = .ok made) :
    entries.map (·.1.keyText?) = made.map (some ·.1.toList) := by
  induction entries generalizing made with
  | nil =>
    cases built
    rfl
  | cons entry rest ih =>
    obtain ⟨name, v, others, named, _, all, rfl⟩ := members_cons built
    rw [List.map_cons, List.map_cons, ih all, named, String.toList_ofList]

theorem floatless_str {s : List Char} : ¬ (Json.Value.str (String.ofList s)).Holds (.float x) := by
  rintro (_ | ⟨⟨⟩, _⟩)

theorem pairStrings_floatless {entries : List (Content × Content)} {v : Json.Value}
    (built : pairStrings entries = .ok v) : ¬ v.Holds (.float x) := by
  unfold pairStrings at built
  obtain ⟨items, _, rfl⟩ := map_eq_ok built
  rw [Value.holds_arr]
  rintro ⟨_, among, held⟩
  obtain ⟨s, _, rfl⟩ := List.mem_map.mp among
  exact floatless_str held

mutual

/-- The doubles in the value of a content are those that count in it. -/
theorem value_holds_float_iff (c : Content) {v : Json.Value} (built : c.value = .ok v) :
    v.Holds (.float x) ↔ c.Counts x := by
  cases c with
  | float y =>
    cases built
    constructor
    · rintro (_ | ⟨⟨⟩, _⟩)
      exact .here
    · rintro ⟨⟩
      exact .here
  | sequence items =>
    obtain ⟨vs, all, rfl⟩ := map_eq_ok built
    rw [Value.holds_arr, values_hold_float_iff items all, counts_sequence]
  | mapping entries =>
    obtain ⟨made, all, rfl⟩ := map_eq_ok built
    rw [holds_distinct, members_hold_float_iff entries all, counts_mapping]
  | pairs entries => exact iff_of_false (pairStrings_floatless built) nofun
  | set items =>
    obtain ⟨s, _, rfl⟩ := map_eq_ok built
    exact iff_of_false floatless_str nofun
  | enclosing => exact nomatch built
  | null | bool b | int n | text s | timestamp t | octets bytes | opaqueText s =>
    cases built
    exact iff_of_false (by rintro (_ | ⟨⟨⟩, _⟩)) nofun

theorem values_hold_float_iff (items : List Content) {vs : List Json.Value}
    (built : values items = .ok vs) : (∃ v ∈ vs, v.Holds (.float x)) ↔ ∃ c ∈ items, c.Counts x := by
  cases items with
  | nil =>
    cases built
    simp
  | cons item rest =>
    rw [values] at built
    cases first : item.value with
    | error failure =>
      rw [first] at built
      exact nomatch built
    | ok v =>
      rw [first] at built
      obtain ⟨others, all, rfl⟩ := map_eq_ok built
      simp only [List.mem_cons, exists_eq_or_imp, value_holds_float_iff item first,
        values_hold_float_iff rest all]

theorem members_hold_float_iff (entries : List (Content × Content)) {made : List (String × Json.Value)}
    (built : members entries = .ok made) :
    (∃ entry after, entry :: after <:+ made ∧ (∀ later ∈ after, later.1 ≠ entry.1) ∧
        entry.2.Holds (.float x)) ↔
      ∃ entry after, entry :: after <:+ entries ∧
        (∀ later ∈ after, later.1.keyText? ≠ entry.1.keyText?) ∧ entry.2.Counts x := by
  cases entries with
  | nil =>
    cases built
    simp
  | cons entry rest =>
    obtain ⟨key, content⟩ := entry
    obtain ⟨name, v, others, named, first, all, rfl⟩ := members_cons built
    have last : (∀ later ∈ others, later.1 ≠ String.ofList name) ↔
        ∀ later ∈ rest, later.1.keyText? ≠ key.keyText? := by
      calc (∀ later ∈ others, later.1 ≠ String.ofList name)
          ↔ ∀ later ∈ others, some later.1.toList ≠ some name := by
            simp only [ne_eq, Option.some_inj, ← String.toList_inj, String.toList_ofList]
        _ ↔ ∀ shown ∈ rest.map (·.1.keyText?), shown ≠ some name := by
            rw [members_names all, List.forall_mem_map]
        _ ↔ ∀ later ∈ rest, later.1.keyText? ≠ key.keyText? := by rw [List.forall_mem_map, named]
    rw [exists_suffix_cons, exists_suffix_cons, members_hold_float_iff rest all,
      value_holds_float_iff content first, last]

end

/-- A double stands in a content, be it kept or not. Keys are left aside. -/
inductive Holds (x : Binary64) : Content → Prop
  | here : Holds x (.float x)
  | item {items : List Content} {c : Content} : c ∈ items → Holds x c → Holds x (.sequence items)
  | value {entries : List (Content × Content)} {entry : Content × Content} :
      entry ∈ entries → Holds x entry.2 → Holds x (.mapping entries)

theorem Counts.holds {c : Content} (counts : c.Counts x) : c.Holds x := by
  induction counts with
  | here => exact .here
  | item among _ ih => exact .item among ih
  | value ending _ _ ih => exact .value (ending.subset List.mem_cons_self) ih

theorem holds_of_entries {c : Content} {entry : Content × Content} (among : entry ∈ c.entries)
    (held : entry.2.Holds x) : c.Holds x := by
  cases c with
  | mapping entries => exact .value among held
  | _ => exact nomatch among

theorem mem_mergeInto {own merged : List (Content × Content)} {entry : Content × Content}
    (among : entry ∈ mergeInto own merged) : entry ∈ own ∨ entry ∈ merged := by
  induction merged generalizing own with
  | nil => exact Or.inl among
  | cons first rest ih =>
    rcases ih among with known | later
    · dsimp only at known
      split at known
      · exact Or.inl known
      · rcases List.mem_append.mp known with old | new
        · exact Or.inl old
        · exact Or.inr (List.mem_singleton.mp new ▸ List.mem_cons_self)
    · exact Or.inr (List.mem_cons_of_mem _ later)

theorem mem_foldl_mergeInto {own : List (Content × Content)} {merged : List (List (Content × Content))}
    {entry : Content × Content} (among : entry ∈ merged.foldl mergeInto own) :
    entry ∈ own ∨ ∃ entries ∈ merged, entry ∈ entries := by
  induction merged generalizing own with
  | nil => exact Or.inl among
  | cons first rest ih =>
    rcases ih among with known | ⟨entries, later, inside⟩
    · rcases mem_mergeInto known with old | new
      · exact Or.inl old
      · exact Or.inr ⟨first, List.mem_cons_self, new⟩
    · exact Or.inr ⟨entries, List.mem_cons_of_mem _ later, inside⟩

end Content

/-- A scalar for a number with a fraction stands in a node, not in a key, and its text has a property. -/
inductive Node.HasFloat (p : List Char → Prop) : Node → Prop
  | scalar {mark : Mark} {anchored : Bool} {text : List Char} :
      p text → HasFloat p (.scalar mark .float anchored text)
  | item {mark : Mark} {type : NodeType} {items : List Node} {item : Node} :
      item ∈ items → HasFloat p item → HasFloat p (.sequence mark type items)
  | value {mark : Mark} {type : NodeType} {entries : List (Node × Node)} {entry : Node × Node} :
      entry ∈ entries → HasFloat p entry.2 → HasFloat p (.mapping mark type entries)

theorem Node.HasFloat.mono {p q : List Char → Prop} {node : Node} (has : node.HasFloat p)
    (each : ∀ text, p text → q text) : node.HasFloat q := by
  induction has with
  | scalar holds => exact .scalar (each _ holds)
  | item among _ ih => exact .item among ih
  | value among _ ih => exact .value among ih

/-- A text writes a double. -/
def Writes (v : Version) (x : Binary64) (text : List Char) : Prop := float v text = .ok x

variable {v : Version}

theorem valueResult_eq_ok {α : Type} {wrap : α → Content} {result : Except ValueFault α} {c : Content}
    (built : valueResult wrap result = .ok c) : ∃ a, result = .ok a ∧ wrap a = c := by
  cases result with
  | error fault => exact nomatch built
  | ok a => exact ⟨a, rfl, Except.ok.inj built⟩

theorem hideFailure_eq_ok {α : Type} {mark : Mark} {result : Except Failure α} {a : α}
    (built : hideFailure mark result = .ok a) : result = .ok a := by
  cases result with
  | error failure => exact nomatch built
  | ok _ => exact built

theorem mem_contents {items : List Node} {found : List Content} (built : contents v items = .ok found)
    {c : Content} (among : c ∈ found) : ∃ item ∈ items, item.content v = .ok c := by
  induction items generalizing found with
  | nil =>
    cases built
    exact nomatch among
  | cons item rest ih =>
    rw [contents] at built
    split at built
    · cases built
    · rename_i content here
      obtain ⟨more, behind, rfl⟩ := map_eq_ok built
      rcases List.mem_cons.mp among with rfl | later
      · exact ⟨item, List.mem_cons_self, here⟩
      · obtain ⟨other, inside, there⟩ := ih behind later
        exact ⟨other, List.mem_cons_of_mem _ inside, there⟩

theorem mem_addEntry {mark : Mark} {entry other : Content × Content}
    {known added : List (Content × Content)} (built : addEntry mark entry known = .ok added)
    (among : other ∈ added) : other ∈ known ∨ other = entry := by
  unfold addEntry at built
  split at built
  · exact nomatch built
  · cases built
    simpa using among

theorem mem_singleEntries {items : List Node} {known made : List (Content × Content)}
    (built : singleEntries v items known = .ok made) {found : Content × Content} (among : found ∈ made) :
    found ∈ known ∨ ∃ item ∈ items, ∃ entry ∈ item.single?, entry.2.content v = .ok found.2 := by
  induction items generalizing known with
  | nil =>
    rw [singleEntries] at built
    cases built
    exact Or.inl among
  | cons item rest ih =>
    rw [singleEntries_cons] at built
    split at built
    · cases built
    rename_i key value single
    split at built
    · cases built
    · cases built
    rename_i name content named here
    split at built
    · cases built
    rename_i added entered
    rcases ih built with old | ⟨other, inside, there⟩
    · rcases mem_addEntry entered old with before | rfl
      · exact Or.inl before
      · exact Or.inr ⟨item, List.mem_cons_self, _, single, here⟩
    · exact Or.inr ⟨other, List.mem_cons_of_mem _ inside, there⟩

theorem mem_ownEntries {entries : List (Node × Node)} {known made : List (Content × Content)}
    (built : ownEntries v entries known = .ok made) {found : Content × Content} (among : found ∈ made) :
    found ∈ known ∨ ∃ entry ∈ entries, entry.2.content v = .ok found.2 := by
  induction entries generalizing known with
  | nil =>
    cases built
    exact Or.inl among
  | cons entry rest ih =>
    obtain ⟨key, value⟩ := entry
    rw [ownEntries] at built
    have later {known : List (Content × Content)} (built : ownEntries v rest known = .ok made) :
        found ∈ known ∨ ∃ entry ∈ (key, value) :: rest, entry.2.content v = .ok found.2 := by
      obtain old | ⟨other, inside, there⟩ := ih built
      · exact Or.inl old
      · exact Or.inr ⟨other, List.mem_cons_of_mem _ inside, there⟩
    split at built
    · exact later built
    split at built
    · cases built
    · cases built
    rename_i name content named here
    split at built
    · cases built
    rename_i added entered
    rcases later built with old | there
    · rcases mem_addEntry entered old with before | rfl
      · exact Or.inl before
      · exact Or.inr ⟨_, List.mem_cons_self, here⟩
    · exact Or.inr there

theorem mem_mergedItems {items : List Node} {merged : List (List (Content × Content))}
    (built : mergedItems v items = .ok merged) {found : List (Content × Content)} (among : found ∈ merged) :
    ∃ item ∈ items, ∃ c, item.content v = .ok c ∧ c.entries = found := by
  induction items generalizing merged with
  | nil =>
    cases built
    exact nomatch among
  | cons item rest ih =>
    rw [mergedItems] at built
    split at built
    · split at built
      · cases built
      · rename_i content here
        obtain ⟨more, behind, rfl⟩ := map_eq_ok built
        rcases List.mem_cons.mp among with rfl | later
        · exact ⟨item, List.mem_cons_self, content, here, rfl⟩
        · obtain ⟨other, inside, there⟩ := ih behind later
          exact ⟨other, List.mem_cons_of_mem _ inside, there⟩
    · cases built

/-- The mappings that a key asks to merge are the value or items of it. -/
theorem mem_mergedValue {value : Node} {merged : List (List (Content × Content))}
    (built : mergedValue v value = .ok merged) {found : List (Content × Content)} (among : found ∈ merged) :
    ∃ c, c.entries = found ∧ (value.content v = .ok c ∨
      ∃ mark type items, value = .sequence mark type items ∧ ∃ item ∈ items, item.content v = .ok c) := by
  unfold mergedValue at built
  split at built
  · obtain ⟨content, here, rfl⟩ := map_eq_ok built
    obtain rfl := List.mem_singleton.mp among
    exact ⟨content, rfl, Or.inl here⟩
  · split at built
    · rename_i mark type items _
      obtain ⟨item, inside, c, here, rfl⟩ := mem_mergedItems built among
      exact ⟨c, rfl, Or.inr ⟨mark, type, items, rfl, item, inside, here⟩⟩
    · exact nomatch built

theorem mem_mergedEntries {entries : List (Node × Node)} {hasMerged : Bool}
    {merged : List (List (Content × Content))} (built : mergedEntries v hasMerged entries = .ok merged)
    {found : List (Content × Content)} (among : found ∈ merged) :
    ∃ entry ∈ entries, ∃ some, mergedValue v entry.2 = .ok some ∧ found ∈ some := by
  induction entries generalizing hasMerged merged with
  | nil =>
    cases built
    exact nomatch among
  | cons entry rest ih =>
    obtain ⟨key, value⟩ := entry
    rw [mergedEntries_cons] at built
    have later {hasMerged : Bool} {merged : List (List (Content × Content))}
        (built : mergedEntries v hasMerged rest = .ok merged) (among : found ∈ merged) :
        ∃ entry ∈ (key, value) :: rest, ∃ some, mergedValue v entry.2 = .ok some ∧ found ∈ some := by
      obtain ⟨other, inside, there⟩ := ih built among
      exact ⟨other, List.mem_cons_of_mem _ inside, there⟩
    split at built
    · exact later built among
    split at built
    · exact nomatch built
    split at built
    · exact nomatch built
    · rename_i some here
      obtain ⟨more, behind, rfl⟩ := map_eq_ok built
      rcases List.mem_append.mp among with first | other
      · exact ⟨_, List.mem_cons_self, some, here, first⟩
      · exact later behind other

variable {x : Binary64}

theorem scalar_hasFloat {mark : Mark} {type : NodeType} {anchored : Bool} {text : List Char} {c : Content}
    (built : scalarContent v mark type anchored text = .ok c) (held : c.Holds x) :
    (Node.scalar mark type anchored text).HasFloat (Writes v x) := by
  unfold scalarContent at built
  split at built
  · cases built
    exact nomatch held
  · obtain ⟨b, _, rfl⟩ := valueResult_eq_ok built
    cases anchored <;> exact nomatch held
  · obtain ⟨n, _, rfl⟩ := valueResult_eq_ok built
    exact nomatch held
  · obtain ⟨y, read, rfl⟩ := valueResult_eq_ok built
    cases held
    exact .scalar read
  · cases built
    exact nomatch held
  · split at built
    · obtain ⟨t, _, rfl⟩ := valueResult_eq_ok built
      exact nomatch held
    · exact nomatch built
  · split at built
    · cases built
      exact nomatch held
    · exact nomatch built
  · cases built
    exact nomatch held
  · cases built
    exact nomatch held
  · cases built
    exact nomatch held
  · exact nomatch built

/-- What a sequence holds: a sequence, an ordered mapping or pairs. -/
theorem content_of_sequence {mark : Mark} {type : NodeType} {items : List Node} {c : Content}
    (built : (Node.sequence mark type items).content v = .ok c) :
    (∃ found, contents v items = .ok found ∧ c = .sequence found) ∨
      (∃ made, singleEntries v items [] = .ok made ∧ c = .mapping made) ∨
      ∃ made, c = .pairs made := by
  rw [content_sequence] at built
  split at built
  · obtain ⟨found, all, rfl⟩ := map_eq_ok built
    exact Or.inl ⟨found, all, rfl⟩
  · obtain ⟨found, all, rfl⟩ := map_eq_ok built
    exact Or.inl ⟨found, hideFailure_eq_ok all, rfl⟩
  · obtain ⟨made, all, rfl⟩ := map_eq_ok built
    exact Or.inr (Or.inl ⟨made, all, rfl⟩)
  · obtain ⟨made, _, rfl⟩ := map_eq_ok built
    exact Or.inr (Or.inr ⟨made, rfl⟩)
  · exact nomatch built

/-- What a mapping holds: a mapping or a set. -/
theorem content_of_mapping {mark : Mark} {type : NodeType} {entries : List (Node × Node)} {c : Content}
    (built : (Node.mapping mark type entries).content v = .ok c) :
    (∃ merged own, mergedEntries v false entries = .ok merged ∧ ownEntries v entries [] = .ok own ∧
        c = .mapping (merged.foldl Content.mergeInto own)) ∨
      ∃ items, c = .set items := by
  have ofEntries {found : List (Content × Content)}
      (all : joined (mergedEntries v false entries) (ownEntries v entries []) = .ok found) :
      ∃ merged own, mergedEntries v false entries = .ok merged ∧ ownEntries v entries [] = .ok own ∧
        Content.mapping found = .mapping (merged.foldl Content.mergeInto own) := by
    unfold joined at all
    split at all
    · exact nomatch all
    · exact nomatch all
    · rename_i merged own mergedBuilt ownBuilt
      cases all
      exact ⟨merged, own, mergedBuilt, ownBuilt, rfl⟩
  rw [content_mapping] at built
  dsimp only at built
  split at built
  · obtain ⟨found, all, rfl⟩ := map_eq_ok built
    exact Or.inl (ofEntries all)
  · obtain ⟨found, all, rfl⟩ := map_eq_ok built
    exact Or.inl (ofEntries (hideFailure_eq_ok all))
  · obtain ⟨made, _, rfl⟩ := map_eq_ok built
    exact Or.inr ⟨_, rfl⟩
  · exact nomatch built

/-- The value of an entry that a mapping holds is the value of an entry, or of an entry of a mapping that
is merged. -/
theorem mem_joined {entries : List (Node × Node)} {merged : List (List (Content × Content))}
    {own : List (Content × Content)} (mergedBuilt : mergedEntries v false entries = .ok merged)
    (ownBuilt : ownEntries v entries [] = .ok own) {found : Content × Content}
    (among : found ∈ merged.foldl Content.mergeInto own) :
    ∃ entry ∈ entries, entry.2.content v = .ok found.2 ∨
      ∃ c, found ∈ c.entries ∧ (entry.2.content v = .ok c ∨
        ∃ mark type items, entry.2 = .sequence mark type items ∧ ∃ item ∈ items, item.content v = .ok c) := by
  obtain old | ⟨brought, isMerged, among⟩ := Content.mem_foldl_mergeInto among
  · obtain none | ⟨entry, listed, here⟩ := mem_ownEntries ownBuilt old
    · exact nomatch none
    · exact ⟨entry, listed, Or.inl here⟩
  · obtain ⟨entry, listed, _, value, among'⟩ := mem_mergedEntries mergedBuilt isMerged
    obtain ⟨c, rfl, here⟩ := mem_mergedValue value among'
    exact ⟨entry, listed, Or.inr ⟨c, among, here⟩⟩

theorem sizeOf_value_lt {entry : Node × Node} {entries : List (Node × Node)} (among : entry ∈ entries) :
    sizeOf entry.2 < sizeOf entries := by
  have smaller := List.sizeOf_lt_of_mem among
  obtain ⟨key, value⟩ := entry
  simp only [Prod.mk.sizeOf_spec] at *
  omega

/-- Induction over the nodes whose contents a node takes up as values: the items of a sequence and the
values of single entries in them, and the values of a mapping and the items in them. -/
theorem Node.values_induction {P : Node → Prop}
    (scalar : ∀ mark type anchored text, P (.scalar mark type anchored text))
    (enclosing : ∀ mark, P (.enclosing mark))
    (sequence : ∀ mark type items, (∀ item ∈ items, P item) →
      (∀ item ∈ items, ∀ entry ∈ item.single?, P entry.2) → P (.sequence mark type items))
    (mapping : ∀ mark type entries, (∀ entry ∈ entries, P entry.2) →
      (∀ entry ∈ entries, ∀ mark type items, entry.2 = .sequence mark type items →
        ∀ item ∈ items, P item) → P (.mapping mark type entries))
    (node : Node) : P node := by
  induction size : sizeOf node using Nat.strongRecOn generalizing node with
  | ind n ih =>
    subst size
    cases node with
    | scalar mark type anchored text => exact scalar mark type anchored text
    | enclosing mark => exact enclosing mark
    | sequence mark type items =>
      refine sequence mark type items (fun item listed => ?_) fun item listed entry only => ?_
      · have smaller := List.sizeOf_lt_of_mem listed
        refine ih _ ?_ item rfl
        simp only [Node.sequence.sizeOf_spec]
        omega
      · have smaller := List.sizeOf_lt_of_mem listed
        obtain ⟨innerMark, innerType, rfl⟩ := single?_eq_some.mp only
        have inside := sizeOf_value_lt (List.mem_singleton_self entry)
        refine ih _ ?_ entry.2 rfl
        simp only [Node.sequence.sizeOf_spec, Node.mapping.sizeOf_spec] at *
        omega
    | mapping mark type entries =>
      refine mapping mark type entries (fun entry listed => ?_)
        fun entry listed innerMark innerType items same item inside => ?_
      · have smaller := sizeOf_value_lt listed
        refine ih _ ?_ entry.2 rfl
        simp only [Node.mapping.sizeOf_spec]
        omega
      · have smaller := sizeOf_value_lt listed
        have within := List.sizeOf_lt_of_mem inside
        refine ih _ ?_ item rfl
        rw [same] at smaller
        simp only [Node.sequence.sizeOf_spec, Node.mapping.sizeOf_spec] at *
        omega

/-- Every double in what a node holds is written in the node. -/
def Node.Accounts (v : Version) (x : Binary64) (node : Node) : Prop :=
  ∀ c, node.content v = .ok c → c.Holds x → node.HasFloat (Writes v x)

theorem sequence_accounts {mark : Mark} {type : NodeType} {items : List Node}
    (each : ∀ item ∈ items, item.Accounts v x)
    (single : ∀ item ∈ items, ∀ entry ∈ item.single?, entry.2.Accounts v x) :
    (Node.sequence mark type items).Accounts v x := by
  intro c built held
  obtain ⟨found, all, rfl⟩ | ⟨made, all, rfl⟩ | ⟨made, rfl⟩ := content_of_sequence built
  · obtain _ | ⟨among, inside⟩ := held
    obtain ⟨item, listed, here⟩ := mem_contents all among
    exact .item listed (each item listed _ here inside)
  · obtain _ | _ | ⟨among, inside⟩ := held
    obtain none | ⟨item, listed, entry, only, here⟩ := mem_singleEntries all among
    · exact nomatch none
    have has := single item listed entry only _ here inside
    obtain ⟨innerMark, innerType, rfl⟩ := single?_eq_some.mp only
    exact .item listed (.value List.mem_cons_self has)
  · exact nomatch held

theorem mapping_accounts {mark : Mark} {type : NodeType} {entries : List (Node × Node)}
    (each : ∀ entry ∈ entries, entry.2.Accounts v x)
    (merged : ∀ entry ∈ entries, ∀ mark type items, entry.2 = .sequence mark type items →
      ∀ item ∈ items, item.Accounts v x) :
    (Node.mapping mark type entries).Accounts v x := by
  intro c built held
  obtain ⟨_, own, mergedBuilt, ownBuilt, rfl⟩ | ⟨items, rfl⟩ := content_of_mapping built
  · obtain _ | _ | ⟨among, inside⟩ := held
    obtain ⟨entry, listed, here | ⟨c, among, here | ⟨_, _, items, same, item, within, here⟩⟩⟩ :=
      mem_joined mergedBuilt ownBuilt among
    · exact .value listed (each entry listed _ here inside)
    · exact .value listed (each entry listed c here (Content.holds_of_entries among inside))
    · have has := merged entry listed _ _ _ same item within c here
        (Content.holds_of_entries among inside)
      exact .value listed (same ▸ .item within has)
  · exact nomatch held

theorem Node.accounts (node : Node) : node.Accounts v x := by
  induction node using Node.values_induction with
  | scalar mark type anchored text => exact fun c built held => scalar_hasFloat built held
  | enclosing mark =>
    rintro c ⟨⟩ held
    exact nomatch held
  | sequence mark type items each single => exact sequence_accounts each single
  | mapping mark type entries each merged => exact mapping_accounts each merged

end PayloadCheck.Yaml
