import Mathlib.Data.List.Nodup
import PayloadCheck.Proofs.Document.Load
import PayloadCheck.Proofs.Json.Exactness

namespace PayloadCheck

open Json

/-- Every object of a value, at whatever depth, has each name once. -/
inductive Json.Value.NamesOnce : Value → Prop
  | null : NamesOnce .null
  | bool {b : Bool} : NamesOnce (.bool b)
  | int {n : Int} : NamesOnce (.int n)
  | float {x : Number.Binary64} : NamesOnce (.float x)
  | str {s : String} : NamesOnce (.str s)
  | arr {elements : List Value} : (∀ v ∈ elements, NamesOnce v) → NamesOnce (.arr elements)
  | obj {members : List (String × Value)} :
      (members.map (·.1)).Nodup → (∀ member ∈ members, NamesOnce member.2) → NamesOnce (.obj members)

namespace Json

theorem eraseDups_of_nodup {names : List String} (once : names.Nodup) : names.eraseDups = names := by
  induction names with
  | nil => rfl
  | cons name rest ih =>
    obtain ⟨new, others⟩ := List.nodup_cons.mp once
    have kept : rest.filter (fun other => !other == name) = rest :=
      List.filter_eq_self.mpr fun other among => by
        simpa using fun same : other = name => new (same ▸ among)
    rw [List.eraseDups_cons, kept, ih others]

/-- Entries whose names are told once are kept as they are. -/
theorem Keeps.self {entries : List (String × Value)} (once : (entries.map (·.1)).Nodup) :
    Keeps entries entries where
  names := (eraseDups_of_nodup once).symm
  values entry among := by
    refine lookup?_of_mem ?_ (List.mem_reverse.mpr among)
    rw [List.map_reverse]
    exact List.nodup_reverse.mpr once

theorem Value.namesOnce_distinct {entries : List (String × Value)}
    (each : ∀ entry ∈ entries, entry.2.NamesOnce) : (Value.obj (distinct entries)).NamesOnce :=
  .obj (nodup_names_distinct entries) fun member among => each member (mem_of_mem_distinct among)

theorem Value.NamesOnce.members_nodup {v : Value} (once : v.NamesOnce)
    {members : List (String × Value)} (object : v.members? = some members) :
    (members.map (·.1)).Nodup := by
  cases once with
  | obj nodup _ =>
    cases object
    exact nodup
  | _ => exact nomatch object

theorem Value.NamesOnce.children {v : Value} (once : v.NamesOnce) : ∀ w ∈ v.children, w.NamesOnce := by
  cases once with
  | arr each => exact each
  | obj _ each =>
    intro w inside
    obtain ⟨member, among, rfl⟩ := List.mem_map.mp inside
    exact each member among
  | _ => exact nofun

theorem Value.NamesOnce.get? {v w : Value} (once : v.NamesOnce) {name : String}
    (found : v.get? name = some w) : w.NamesOnce := by
  cases once with
  | obj _ each => exact each _ (mem_of_lookup? found)
  | _ => exact nomatch found

mutual

theorem Denotes.namesOnce {t : Tree} {v : Value} : Denotes t v → v.NamesOnce
  | .null => .null
  | .bool => .bool
  | .integer _ => .int
  | .rounded _ => .float
  | .string _ => .str
  | .array all => .arr all.namesOnce
  | .object all keeps => by
    rw [keeps.eq_distinct]
    exact Value.namesOnce_distinct all.namesOnce

theorem DenoteAll.namesOnce {ts : List Tree} {vs : List Value} :
    DenoteAll ts vs → ∀ v ∈ vs, v.NamesOnce
  | .nil => List.forall_mem_nil _
  | .cons first rest => List.forall_mem_cons.mpr ⟨first.namesOnce, rest.namesOnce⟩

theorem DenoteEntries.namesOnce {ms : List (List Piece × Tree)} {entries : List (String × Value)} :
    DenoteEntries ms entries → ∀ entry ∈ entries, entry.2.NamesOnce
  | .nil => List.forall_mem_nil _
  | .cons _ first rest => List.forall_mem_cons.mpr ⟨first.namesOnce, rest.namesOnce⟩

end

theorem parse_namesOnce (text : List Char) : (parse text).2.NamesOnce := by
  cases visible : Text.allBlank text with
  | true =>
    rw [parse_of_blank visible]
    exact .null
  | false =>
    cases read : decode ⟨nestingLimit, false⟩ text with
    | ok v =>
      obtain ⟨t, _, _, denotes⟩ := decode_eq_ok.mp read
      rw [parse_of_decode visible read]
      exact denotes.namesOnce
    | error refusal =>
      obtain ⟨place, reported⟩ := parse_of_refusal visible read
      rw [reported]
      exact .null

end Json

namespace Yaml

namespace Content

theorem stringOf_namesOnce {shown : Option (List Char)} {v : Value} (built : stringOf shown = .ok v) :
    v.NamesOnce := by
  cases shown with
  | none => exact nomatch built
  | some s =>
    cases built
    exact .str

theorem pairStrings_namesOnce {entries : List (Content × Content)} {v : Value}
    (built : pairStrings entries = .ok v) : v.NamesOnce := by
  unfold pairStrings at built
  cases shown : shownEntries? entries with
  | none =>
    rw [shown] at built
    exact nomatch built
  | some items =>
    rw [shown] at built
    cases built
    refine .arr fun v among => ?_
    obtain ⟨item, _, rfl⟩ := List.mem_map.mp among
    exact .str

mutual

theorem value_namesOnce (c : Content) {v : Value} (built : c.value = .ok v) : v.NamesOnce := by
  cases c with
  | sequence items =>
    obtain ⟨vs, all, rfl⟩ := map_eq_ok built
    exact .arr (values_namesOnce items all)
  | mapping entries =>
    obtain ⟨made, all, rfl⟩ := map_eq_ok built
    exact Value.namesOnce_distinct (members_namesOnce entries all)
  | pairs entries => exact pairStrings_namesOnce built
  | set items => exact stringOf_namesOnce built
  | octets bytes => exact stringOf_namesOnce built
  | enclosing => exact nomatch built
  | null =>
    cases built
    exact .null
  | bool b =>
    cases built
    exact .bool
  | int n =>
    cases built
    exact .int
  | float x =>
    cases built
    exact .float
  | text s | timestamp t | opaqueText s =>
    cases built
    exact .str

theorem values_namesOnce (items : List Content) {vs : List Value} (built : values items = .ok vs) :
    ∀ v ∈ vs, v.NamesOnce := by
  cases items with
  | nil =>
    cases built
    exact List.forall_mem_nil _
  | cons item rest =>
    rw [values] at built
    cases first : item.value with
    | error failure =>
      rw [first] at built
      exact nomatch built
    | ok v =>
      rw [first] at built
      obtain ⟨others, all, rfl⟩ := map_eq_ok built
      exact List.forall_mem_cons.mpr ⟨value_namesOnce item first, values_namesOnce rest all⟩

theorem members_namesOnce (entries : List (Content × Content)) {made : List (String × Value)}
    (built : members entries = .ok made) : ∀ member ∈ made, member.2.NamesOnce := by
  cases entries with
  | nil =>
    cases built
    exact List.forall_mem_nil _
  | cons entry rest =>
    obtain ⟨key, content⟩ := entry
    rw [members] at built
    cases name : written key.keyText? with
    | error failure =>
      rw [name] at built
      exact nomatch built
    | ok name' =>
      cases first : content.value with
      | error failure =>
        rw [name, first] at built
        exact nomatch built
      | ok v =>
        rw [name, first] at built
        obtain ⟨others, all, rfl⟩ := map_eq_ok built
        exact List.forall_mem_cons.mpr ⟨value_namesOnce content first, members_namesOnce rest all⟩

end

end Content

theorem read_namesOnce {depth : Int} {text : List Char} {v : Value} (built : read depth text = .ok v) :
    v.NamesOnce := by
  unfold read at built
  split at built
  · exact nomatch built
  · cases built
    exact .null
  · split at built
    · exact nomatch built
    · rename_i content _
      exact content.value_namesOnce built

end Yaml

/-- No object in a loaded document has two members of one name. -/
theorem Document.load_namesOnce {limits : Limits} {text : List Char} {document : Value}
    (loaded : load limits text = .ok document) : document.NamesOnce := by
  have read := (load_ok loaded).2
  split at read
  · unfold readJson at read
    split at read
    · rename_i v parsed
      cases read
      have once := parse_namesOnce text
      rwa [parsed] at once
    · exact nomatch read
  · unfold readYaml at read
    split at read
    · exact nomatch read
    · split at read
      · cases read
        exact Value.namesOnce_distinct (List.forall_mem_nil _)
      · rename_i built
        cases read
        exact Yaml.read_namesOnce built
      · exact nomatch read

end PayloadCheck
