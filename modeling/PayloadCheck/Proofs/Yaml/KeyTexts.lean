import PayloadCheck.Proofs.Document.Finite
import PayloadCheck.Proofs.Json.MessagePlace
import PayloadCheck.Proofs.Yaml.Doubles

namespace PayloadCheck.Yaml

open Json Number

namespace Content

/-- A content without items and entries of its own. -/
def isSingle : Content → Bool
  | .sequence _ => false
  | .mapping _ => false
  | _ => true

/-- A content is, or has in it, another one that becomes a value. Keys are left aside. -/
inductive Has : Content → Content → Prop
  | here {c : Content} : Has c c
  | item {items : List Content} {c part : Content} : c ∈ items → Has c part → Has (.sequence items) part
  | value {entries : List (Content × Content)} {entry : Content × Content} {part : Content} :
      entry ∈ entries → Has entry.2 part → Has (.mapping entries) part

mutual

/-- A value has all that a content has: an element for each item and a member for each entry, in their
order, and the text of each key as the name. -/
inductive Kept : Content → Json.Value → Prop
  | single {c : Content} {v : Json.Value} : c.isSingle = true → c.value = .ok v → Kept c v
  | sequence {items : List Content} {elements : List Json.Value} :
      KeptItems items elements → Kept (.sequence items) (.arr elements)
  | mapping {entries : List (Content × Content)} {members : List (String × Json.Value)} :
      KeptEntries entries members → Kept (.mapping entries) (.obj members)

inductive KeptItems : List Content → List Json.Value → Prop
  | nil : KeptItems [] []
  | cons {c : Content} {v : Json.Value} {items : List Content} {elements : List Json.Value} :
      Kept c v → KeptItems items elements → KeptItems (c :: items) (v :: elements)

inductive KeptEntries : List (Content × Content) → List (String × Json.Value) → Prop
  | nil : KeptEntries [] []
  | cons {key c : Content} {name : String} {v : Json.Value} {entries : List (Content × Content)}
      {members : List (String × Json.Value)} :
      key.keyText? = some name.toList → Kept c v → KeptEntries entries members →
      KeptEntries ((key, c) :: entries) ((name, v) :: members)

end

/-- Two keys differ and have one text. -/
def Clash (key later : Content) : Prop := same later key = false ∧ key.keyText? = later.keyText?

/-- The keys of entries differ from one another. -/
def KeysDiffer (entries : List (Content × Content)) : Prop :=
  entries.Pairwise fun entry later => same later.1 entry.1 = false

/-- The keys of all mappings in a content have texts that differ. -/
def TextsDiffer (c : Content) : Prop :=
  ∀ entries, c.Has (.mapping entries) → (entries.map (·.1.keyText?)).Nodup

theorem has_mapping_single {c : Content} (single : c.isSingle = true)
    {entries : List (Content × Content)} : ¬ c.Has (.mapping entries) := by
  rintro (_ | _ | _) <;> exact nomatch single

theorem textsDiffer_sequence {items : List Content} :
    (Content.sequence items).TextsDiffer ↔ ∀ item ∈ items, item.TextsDiffer := by
  constructor
  · exact fun differ item among entries has => differ entries (.item among has)
  · rintro differ entries (_ | ⟨among, has⟩)
    exact differ _ among entries has

theorem textsDiffer_mapping {entries : List (Content × Content)} :
    (Content.mapping entries).TextsDiffer ↔
      (entries.map (·.1.keyText?)).Nodup ∧ ∀ entry ∈ entries, entry.2.TextsDiffer := by
  constructor
  · exact fun differ => ⟨differ entries .here, fun entry among others has =>
      differ others (.value among has)⟩
  · rintro ⟨here, differ⟩ others (_ | _ | ⟨among, has⟩)
    · exact here
    · exact differ _ among others has

theorem KeptEntries.names {entries : List (Content × Content)} {members : List (String × Json.Value)} :
    KeptEntries entries members → entries.map (·.1.keyText?) = members.map (some ·.1.toList)
  | .nil => rfl
  | .cons named _ rest => by rw [List.map_cons, List.map_cons, rest.names, named]

/-- The texts of keys differ as the names that are made of them do. -/
theorem nodup_keyTexts_iff {entries : List (Content × Content)} {made : List (String × Json.Value)}
    (names : entries.map (·.1.keyText?) = made.map (some ·.1.toList)) :
    (entries.map (·.1.keyText?)).Nodup ↔ (made.map (·.1)).Nodup := by
  have injective : Function.Injective fun name : String => some name.toList :=
    fun _ _ same => String.toList_inj.mp (Option.some.inj same)
  rw [names, ← List.nodup_map_iff injective, List.map_map]
  rfl

mutual

/-- All of a content is kept where no two keys of a mapping in it have one text. -/
theorem kept_iff (c : Content) {v : Json.Value} (built : c.value = .ok v) :
    c.Kept v ↔ c.TextsDiffer := by
  cases c with
  | sequence items =>
    obtain ⟨elements, all, rfl⟩ := map_eq_ok built
    rw [textsDiffer_sequence, ← keptItems_iff items all]
    exact ⟨fun | .sequence kept => kept, .sequence⟩
  | mapping entries =>
    obtain ⟨made, all, rfl⟩ := map_eq_ok built
    rw [textsDiffer_mapping, ← keptEntries_iff entries all, nodup_keyTexts_iff (members_names all)]
    constructor
    · rintro (⟨⟨⟩, _⟩ | _ | kept)
      have once := (nodup_keyTexts_iff (members_names all)).mp
        ((nodup_keyTexts_iff kept.names).mpr (nodup_names_distinct made))
      rw [← (Keeps.self once).eq_distinct] at kept
      exact ⟨once, kept⟩
    · rintro ⟨once, kept⟩
      rw [← (Keeps.self once).eq_distinct]
      exact .mapping kept
  | null | bool b | int n | float x | text s | timestamp t | octets bytes | opaqueText s | pairs entries
    | set items | enclosing =>
    exact iff_of_true (.single rfl built) fun _ has => absurd has (has_mapping_single rfl)

theorem keptItems_iff (items : List Content) {elements : List Json.Value}
    (built : values items = .ok elements) : KeptItems items elements ↔ ∀ item ∈ items, item.TextsDiffer := by
  cases items with
  | nil =>
    cases built
    exact iff_of_true .nil (List.forall_mem_nil _)
  | cons item rest =>
    rw [values] at built
    cases first : item.value with
    | error failure =>
      rw [first] at built
      exact nomatch built
    | ok v =>
      rw [first] at built
      obtain ⟨others, all, rfl⟩ := map_eq_ok built
      rw [List.forall_mem_cons, ← kept_iff item first, ← keptItems_iff rest all]
      exact ⟨fun | .cons kept others => ⟨kept, others⟩, fun ⟨kept, others⟩ => .cons kept others⟩

theorem keptEntries_iff (entries : List (Content × Content)) {made : List (String × Json.Value)}
    (built : members entries = .ok made) :
    KeptEntries entries made ↔ ∀ entry ∈ entries, entry.2.TextsDiffer := by
  cases entries with
  | nil =>
    cases built
    exact iff_of_true .nil (List.forall_mem_nil _)
  | cons entry rest =>
    obtain ⟨key, content⟩ := entry
    obtain ⟨name, v, others, named, first, all, rfl⟩ := members_cons built
    rw [List.forall_mem_cons, ← kept_iff content first, ← keptEntries_iff rest all]
    constructor
    · rintro (_ | ⟨_, kept, others⟩)
      exact ⟨kept, others⟩
    · exact fun ⟨kept, others⟩ => .cons (String.toList_ofList ▸ named) kept others

end

theorem hasKey_eq_false {known : List (Content × Content)} {key : Content} :
    hasKey known key = false ↔ ∀ entry ∈ known, same key entry.1 = false := by
  simp [hasKey]

theorem KeysDiffer.append {known : List (Content × Content)} (differ : KeysDiffer known)
    {entry : Content × Content} (new : hasKey known entry.1 = false) : KeysDiffer (known ++ [entry]) := by
  refine List.pairwise_append.mpr ⟨differ, List.pairwise_singleton _ _, fun old among later is => ?_⟩
  obtain rfl := List.mem_singleton.mp is
  exact hasKey_eq_false.mp new old among

theorem KeysDiffer.mergeInto {own : List (Content × Content)} (differ : KeysDiffer own)
    (merged : List (Content × Content)) : KeysDiffer (mergeInto own merged) := by
  induction merged generalizing own with
  | nil => exact differ
  | cons first rest ih =>
    rw [Content.mergeInto, List.foldl_cons]
    cases known : hasKey own first.1 with
    | true => exact ih differ
    | false => exact ih (differ.append known)

theorem KeysDiffer.mergeAll {own : List (Content × Content)} (differ : KeysDiffer own)
    (merged : List (List (Content × Content))) : KeysDiffer (merged.foldl Content.mergeInto own) := by
  induction merged generalizing own with
  | nil => exact differ
  | cons first rest ih => exact ih (differ.mergeInto first)

/-- No two different keys fall together where the keys that differ have texts that do. -/
theorem nodup_keyTexts_iff_no_clash {entries : List (Content × Content)} (differ : KeysDiffer entries) :
    (entries.map (·.1.keyText?)).Nodup ↔ entries.Pairwise fun entry later => ¬ Clash entry.1 later.1 := by
  rw [List.Nodup, List.pairwise_map]
  constructor
  · exact fun apart => apart.imp fun other clash => other clash.2
  · exact fun apart => (differ.and apart).imp fun ⟨other, apart⟩ texts => apart ⟨other, texts⟩

end Content

open Content

variable {v : Version}

theorem addEntry_differ {mark : Mark} {entry : Content × Content} {known added : List (Content × Content)}
    (differ : KeysDiffer known) (built : addEntry mark entry known = .ok added) : KeysDiffer added := by
  unfold addEntry at built
  split at built
  · exact nomatch built
  · rename_i new
    cases built
    exact differ.append (Bool.eq_false_iff.mpr new)

theorem singleEntries_differ {items : List Node} {known made : List (Content × Content)}
    (differ : KeysDiffer known) (built : singleEntries v items known = .ok made) : KeysDiffer made := by
  induction items generalizing known with
  | nil =>
    rw [singleEntries] at built
    cases built
    exact differ
  | cons item rest ih =>
    rw [singleEntries_cons] at built
    split at built
    · cases built
    split at built
    · cases built
    · cases built
    split at built
    · cases built
    · rename_i added entered
      exact ih (addEntry_differ differ entered) built

theorem ownEntries_differ {entries : List (Node × Node)} {known made : List (Content × Content)}
    (differ : KeysDiffer known) (built : ownEntries v entries known = .ok made) : KeysDiffer made := by
  induction entries generalizing known with
  | nil =>
    cases built
    exact differ
  | cons entry rest ih =>
    rw [ownEntries] at built
    split at built
    · exact ih differ built
    split at built
    · cases built
    · cases built
    split at built
    · cases built
    · rename_i added entered
      exact ih (addEntry_differ differ entered) built

theorem scalarContent_isSingle {mark : Mark} {type : NodeType} {anchored : Bool} {text : List Char}
    {c : Content} (built : scalarContent v mark type anchored text = .ok c) : c.isSingle = true := by
  have read {α : Type} {wrap : α → Content} {result : Except ValueFault α}
      (single : ∀ a, (wrap a).isSingle = true) (built : valueResult wrap result = .ok c) :
      c.isSingle = true := by
    obtain ⟨a, _, rfl⟩ := valueResult_eq_ok built
    exact single a
  unfold scalarContent at built
  split at built
  · cases built
    rfl
  · exact read (fun b => by cases anchored <;> rfl) built
  · exact read (fun _ => rfl) built
  · exact read (fun _ => rfl) built
  · cases built
    rfl
  · split at built
    · exact read (fun _ => rfl) built
    · exact nomatch built
  · split at built
    · cases built
      rfl
    · exact nomatch built
  · cases built
    rfl
  · cases built
    rfl
  · cases built
    rfl
  · exact nomatch built

/-- The keys of every mapping that becomes a value differ from one another. -/
def Content.IsSound (c : Content) : Prop := ∀ entries, c.Has (.mapping entries) → KeysDiffer entries

theorem Content.IsSound.mapping {entries : List (Content × Content)} (differ : KeysDiffer entries)
    (each : ∀ entry ∈ entries, entry.2.IsSound) : (Content.mapping entries).IsSound := by
  rintro others (_ | _ | ⟨among, has⟩)
  · exact differ
  · exact each _ among others has

theorem Content.IsSound.entry {c : Content} (sound : c.IsSound) {entry : Content × Content}
    (among : entry ∈ c.entries) : entry.2.IsSound := by
  cases c with
  | mapping entries => exact fun others has => sound others (.value among has)
  | _ => exact nomatch among

/-- No mapping that a node holds has one key twice. -/
theorem Node.content_isSound (node : Node) {c : Content} (held : node.content v = .ok c) : c.IsSound := by
  induction node using Node.values_induction generalizing c with
  | scalar mark type anchored text =>
    exact fun entries has => absurd has (has_mapping_single (scalarContent_isSingle held))
  | enclosing mark =>
    cases held
    exact fun entries has => absurd has (has_mapping_single rfl)
  | sequence mark type items each single =>
    obtain ⟨found, all, rfl⟩ | ⟨made, all, rfl⟩ | ⟨made, rfl⟩ := content_of_sequence held
    · rintro entries (_ | ⟨among, has⟩)
      obtain ⟨item, listed, here⟩ := mem_contents all among
      exact each item listed here entries has
    · refine .mapping (singleEntries_differ .nil all) fun entry among => ?_
      obtain none | ⟨item, listed, entry, only, here⟩ := mem_singleEntries all among
      · exact nomatch none
      · exact single item listed entry only here
    · exact fun entries has => absurd has (has_mapping_single rfl)
  | mapping mark type entries each merged =>
    obtain ⟨_, own, mergedBuilt, ownBuilt, rfl⟩ | ⟨items, rfl⟩ := content_of_mapping held
    · refine .mapping ((ownEntries_differ .nil ownBuilt).mergeAll _) fun entry among => ?_
      obtain ⟨entry, listed, here | ⟨c, among, here | ⟨_, _, items, same, item, within, here⟩⟩⟩ :=
        mem_joined mergedBuilt ownBuilt among
      · exact each entry listed here
      · exact (each entry listed here).entry among
      · exact (merged entry listed _ _ _ same item within here).entry among
    · exact fun entries has => absurd has (has_mapping_single rfl)

/-- The value of what a node holds keeps every mapping entry for entry if and only if no mapping has two
keys that differ and have one text. -/
theorem entries_kept_iff {node : Node} {c : Content} {value : Json.Value} (held : node.content v = .ok c)
    (built : c.value = .ok value) :
    c.Kept value ↔ ∀ entries, c.Has (.mapping entries) →
      entries.Pairwise fun entry later => ¬ Clash entry.1 later.1 := by
  rw [c.kept_iff built]
  exact forall₂_congr fun entries has =>
    nodup_keyTexts_iff_no_clash (node.content_isSound held entries has)

/-- A mapping with the integer one and the text of it as keys. -/
def clashingText : String := "paths: \x7b\x7d\nx:\n  1: a\n  \"1\": b\n"

/-- Whether the second member of a mapping has an entry for either key. -/
def isClashing : Content → Bool
  | .mapping [_, (_, .mapping [(.int 1, _), (.text name, _)])] => name == ['1']
  | _ => false

/-- Whether a value has one entry for both keys, with the value of the later one. -/
def isClashed : Json.Value → Bool
  | .obj [(name, .str s)] => name == "1" && s == "b"
  | _ => false

theorem eq_of_isClashing {c : Content} (clashing : isClashing c = true) :
    ∃ first second a b, c = .mapping [first, (second, .mapping [(.int 1, a), (.text ['1'], b)])] := by
  unfold isClashing at clashing
  split at clashing
  · obtain rfl := eq_of_beq clashing
    exact ⟨_, _, _, _, rfl⟩
  · exact nomatch clashing

theorem eq_of_isClashed {v : Json.Value} (clashed : isClashed v = true) : v = .obj [("1", .str "b")] := by
  unfold isClashed at clashed
  split at clashed
  · obtain ⟨rfl, rfl⟩ := by simpa using clashed
    rfl
  · exact nomatch clashed

theorem clashingText_loaded : ∃ document version root c first second a b,
    Document.load {} clashingText.toList = .ok document ∧
      document.get? "x" = some (.obj [("1", .str "b")]) ∧
      Node.ofText 64 clashingText.toList = .ok (version, some root) ∧ root.content version = .ok c ∧
      c.value = .ok document ∧ c = .mapping [first, (second, .mapping [(.int 1, a), (.text ['1'], b)])] := by
  have becomes : ((Document.load {} clashingText.toList).toOption.bind (·.get? "x")).any isClashed =
      true := by decide +kernel
  have holds : ((Node.ofText 64 clashingText.toList).toOption.bind fun (v, root) =>
      root.bind fun root => (root.content v).toOption).any isClashing = true := by decide +kernel
  cases loaded : Document.load {} clashingText.toList with
  | error fault =>
    rw [loaded] at becomes
    exact nomatch becomes
  | ok document =>
    have yaml : Document.isJson clashingText.toList = false := by decide +kernel
    obtain ⟨version, root, c, nodes, held, built⟩ := Document.load_yaml_content yaml loaded
    rw [loaded] at becomes
    obtain ⟨member, found, clashed⟩ := (Option.any_eq_true _ _).mp becomes
    have clashing : isClashing c = true := by
      simpa only [nodes, Except.toOption, Option.bind_some, held, Option.any_some] using holds
    obtain ⟨first, second, a, b, shape⟩ := eq_of_isClashing clashing
    exact ⟨document, version, root, c, first, second, a, b, rfl, eq_of_isClashed clashed ▸ found, nodes,
      held, built, shape⟩

theorem entries_kept_iff_clashingText : ∃ version root c value,
    Node.ofText 64 clashingText.toList = .ok (version, some root) ∧ root.content version = .ok c ∧
      c.value = .ok value ∧ (c.Kept value ↔ ∀ entries, c.Has (.mapping entries) →
        entries.Pairwise fun entry later => ¬ Clash entry.1 later.1) := by
  obtain ⟨document, version, root, c, _, _, _, _, _, _, nodes, held, built, _⟩ := clashingText_loaded
  exact ⟨version, root, c, document, nodes, held, built, entries_kept_iff held built⟩

/-- Two entries whose keys differ come to be one. -/
theorem load_merges_clashingText : ∃ document version root c first second a b,
    Document.load {} clashingText.toList = .ok document ∧
      Node.ofText 64 clashingText.toList = .ok (version, some root) ∧ root.content version = .ok c ∧
      c.value = .ok document ∧ c = .mapping [first, (second, .mapping [(.int 1, a), (.text ['1'], b)])] ∧
      same (.text ['1']) (.int 1) = false ∧ document.get? "x" = some (.obj [("1", .str "b")]) ∧
      ¬ c.Kept document := by
  obtain ⟨document, version, root, c, first, second, a, b, loaded, found, nodes, held, built, rfl⟩ :=
    clashingText_loaded
  refine ⟨document, version, root, _, first, second, a, b, loaded, nodes, held, built, rfl, rfl, found,
    fun kept => ?_⟩
  have member : (Content.mapping [first, (second, .mapping [(.int 1, a), (.text ['1'], b)])]).Has
      (.mapping [(.int 1, a), (.text ['1'], b)]) :=
    .value (List.mem_cons_of_mem _ List.mem_cons_self) .here
  have differ : [some ['1'], some ['1']].Nodup := (kept_iff _ built).mp kept _ member
  exact absurd differ (by decide)

end PayloadCheck.Yaml
