import PayloadCheck.Proofs.Json.Exactness
import PayloadCheck.Proofs.Json.Plain
import PayloadCheck.Proofs.Number.Overflow

namespace PayloadCheck

theorem exists_suffix_cons {α : Type} {p : α → List α → Prop} {first : α} {rest : List α} :
    (∃ a after, a :: after <:+ first :: rest ∧ p a after) ↔
      p first rest ∨ ∃ a after, a :: after <:+ rest ∧ p a after := by
  constructor
  · rintro ⟨a, after, ending, holds⟩
    rcases List.suffix_cons_iff.mp ending with same | later
    · cases same
      exact Or.inl holds
    · exact Or.inr ⟨a, after, later, holds⟩
  · rintro (holds | ⟨a, after, later, holds⟩)
    · exact ⟨first, rest, List.suffix_rfl, holds⟩
    · exact ⟨a, after, later.trans (List.suffix_cons _ _), holds⟩

theorem lookup?_reverse_eq_some {α : Type} {name : String} {value : α} {entries : List (String × α)} :
    lookup? name entries.reverse = some value ↔
      ∃ after, (name, value) :: after <:+ entries ∧ ∀ later ∈ after, later.1 ≠ name := by
  induction entries with
  | nil => simp [lookup?]
  | cons first rest ih =>
    obtain ⟨key, old⟩ := first
    have absent : lookup? name rest.reverse = none ↔ ∀ later ∈ rest, later.1 ≠ name := by
      simp [lookup?_eq_none]
    rw [List.reverse_cons, lookup?_append, Option.or_eq_some_iff, ih, absent]
    constructor
    · rintro (⟨after, last, others⟩ | ⟨others, found⟩)
      · exact ⟨after, last.trans (List.suffix_cons _ _), others⟩
      · have here : key = name ∧ old = value := by simpa [lookup?] using found
        rw [← here.1, ← here.2]
        exact ⟨rest, List.suffix_rfl, here.1 ▸ others⟩
    · rintro ⟨after, last, others⟩
      rcases List.suffix_cons_iff.mp last with same | later
      · cases same
        exact Or.inr ⟨others, by simp [lookup?]⟩
      · exact Or.inl ⟨after, later, others⟩

/-- What is kept of entries is the last one of each name. -/
theorem mem_distinct_iff {α : Type} {entry : String × α} {entries : List (String × α)} :
    entry ∈ distinct entries ↔
      ∃ after, entry :: after <:+ entries ∧ ∀ later ∈ after, later.1 ≠ entry.1 := by
  rw [← lookup?_reverse_eq_some, ← Json.lookup?_distinct]
  exact ⟨lookup?_of_mem (Json.nodup_names_distinct entries), mem_of_lookup?⟩

namespace Json

open Number

/-- The double next to a number that is no integer. -/
def Numeral.double (n : Numeral) : Binary64 :=
  Binary64.ofDecimal n.negative (decimal (n.whole ++ n.fractionDigits)) n.scale

/-- No later member of an object has the name of the first. -/
def IsLast (m : List Piece × Tree) (after : List (List Piece × Tree)) : Prop :=
  ∀ later ∈ after, ∀ s, Spells m.1 s → ¬ Spells later.1 s

/-- A number in a tree counts unless it stands in a member whose name comes again. -/
inductive Tree.Counts (n : Numeral) : Tree → Prop
  | here : Counts n (.number n)
  | item {items : List Tree} {t : Tree} : t ∈ items → Counts n t → Counts n (.array items)
  | member {members after : List (List Piece × Tree)} {m : List Piece × Tree} :
      m :: after <:+ members → IsLast m after → Counts n m.2 → Counts n (.object members)

/-- The text that pieces spell is known. -/
theorem spells_iff {ps : List Piece} {s : List Char} : Spells ps s ↔ s = spell ps := by
  refine ⟨Spells.eq_spell, ?_⟩
  rintro rfl
  exact spells_spell ps

theorem isLast_iff {m : List Piece × Tree} {after : List (List Piece × Tree)} :
    IsLast m after ↔ ∀ later ∈ after, spell later.1 ≠ spell m.1 := by
  refine forall₂_congr fun later _ => ?_
  simp only [spells_iff, forall_eq]
  exact ne_comm

theorem DenoteEntries.names {ms : List (List Piece × Tree)} {entries : List (String × Value)} :
    DenoteEntries ms entries → entries.map (·.1) = ms.map (String.ofList <| spell ·.1)
  | .nil => rfl
  | .cons spelled _ rest => by
    rw [List.map_cons, List.map_cons, rest.names, ← spelled.eq_spell, String.ofList_toList]

theorem DenoteEntries.isLast_iff {name : List Piece} {t : Tree} {s : String}
    {ms : List (List Piece × Tree)} {entries : List (String × Value)} (spelled : Spells name s.toList)
    (all : DenoteEntries ms entries) :
    (∀ later ∈ entries, later.1 ≠ s) ↔ IsLast (name, t) ms := by
  have same : s = String.ofList (spell name) := by rw [← spelled.eq_spell, String.ofList_toList]
  calc (∀ later ∈ entries, later.1 ≠ s)
      ↔ ∀ other ∈ entries.map (·.1), other ≠ s := by rw [List.forall_mem_map]
    _ ↔ ∀ later ∈ ms, String.ofList (spell later.1) ≠ s := by rw [all.names, List.forall_mem_map]
    _ ↔ IsLast (name, t) ms := by simp only [Json.isLast_iff, same, ne_eq, String.ofList_inj]

/-- A tree yields a double where a number that is no integer counts in it. -/
def Tree.Yields (x : Binary64) (t : Tree) : Prop := ∃ n, t.Counts n ∧ ¬ n.IsInteger ∧ n.double = x

theorem Tree.yields_array {x : Binary64} {items : List Tree} :
    (Tree.array items).Yields x ↔ ∃ t ∈ items, t.Yields x := by
  constructor
  · rintro ⟨n, _ | ⟨among, counts⟩, double⟩
    exact ⟨_, among, n, counts, double⟩
  · rintro ⟨t, among, n, counts, double⟩
    exact ⟨n, .item among counts, double⟩

theorem Tree.yields_object {x : Binary64} {members : List (List Piece × Tree)} :
    (Tree.object members).Yields x ↔ ∃ m after, m :: after <:+ members ∧ IsLast m after ∧ m.2.Yields x := by
  constructor
  · rintro ⟨n, _ | _ | ⟨ending, last, counts⟩, double⟩
    exact ⟨_, _, ending, last, n, counts, double⟩
  · rintro ⟨m, after, ending, last, n, counts, double⟩
    exact ⟨n, .member ending last counts, double⟩

variable {x : Binary64}

theorem holds_distinct {entries : List (String × Value)} :
    (Value.obj (distinct entries)).Holds (.float x) ↔
      ∃ entry after, entry :: after <:+ entries ∧ (∀ later ∈ after, later.1 ≠ entry.1) ∧
        entry.2.Holds (.float x) := by
  simp only [Value.holds_obj, mem_distinct_iff]
  constructor
  · rintro ⟨entry, ⟨after, ending, last⟩, held⟩
    exact ⟨entry, after, ending, last, held⟩
  · rintro ⟨entry, after, ending, last, held⟩
    exact ⟨entry, ⟨after, ending, last⟩, held⟩

mutual

/-- The doubles in a value are those that the tree yields. -/
theorem Denotes.holds_float_iff {t : Tree} {v : Value} : Denotes t v → (v.Holds (.float x) ↔ t.Yields x)
  | .null => iff_of_false (by rintro (_ | ⟨⟨⟩, _⟩)) (by rintro ⟨n, ⟨⟩, _⟩)
  | .bool => iff_of_false (by rintro (_ | ⟨⟨⟩, _⟩)) (by rintro ⟨n, ⟨⟩, _⟩)
  | .integer integer =>
    iff_of_false (by rintro (_ | ⟨⟨⟩, _⟩)) (by rintro ⟨n, ⟨⟩, other, _⟩; exact other integer)
  | .rounded other => by
    constructor
    · rintro (_ | ⟨⟨⟩, _⟩)
      exact ⟨_, .here, other, rfl⟩
    · rintro ⟨n, ⟨⟩, _, rfl⟩
      exact .here
  | .string _ => iff_of_false (by rintro (_ | ⟨⟨⟩, _⟩)) (by rintro ⟨n, ⟨⟩, _⟩)
  | .array all => by rw [Value.holds_arr, all.holds_float_iff, Tree.yields_array]
  | .object all keeps => by
    rw [keeps.eq_distinct, holds_distinct, all.holds_float_iff, Tree.yields_object]

theorem DenoteAll.holds_float_iff {ts : List Tree} {vs : List Value} :
    DenoteAll ts vs → ((∃ v ∈ vs, v.Holds (.float x)) ↔ ∃ t ∈ ts, t.Yields x)
  | .nil => by simp
  | .cons first rest => by
    simp only [List.mem_cons, exists_eq_or_imp, first.holds_float_iff, rest.holds_float_iff]

theorem DenoteEntries.holds_float_iff {ms : List (List Piece × Tree)} {entries : List (String × Value)} :
    DenoteEntries ms entries →
      ((∃ entry after, entry :: after <:+ entries ∧ (∀ later ∈ after, later.1 ≠ entry.1) ∧
          entry.2.Holds (.float x)) ↔
        ∃ m after, m :: after <:+ ms ∧ IsLast m after ∧ m.2.Yields x)
  | .nil => by simp
  | .cons spelled first rest => by
    rw [exists_suffix_cons, exists_suffix_cons, rest.holds_float_iff, rest.isLast_iff spelled,
      first.holds_float_iff]

end

/-- A number that is no integer counts in a tree and is too great for a double. -/
def Tree.Overflows (t : Tree) : Prop :=
  ∃ n, t.Counts n ∧ ¬ n.IsInteger ∧
    Binary64.overflowBound ≤ (decimal (n.whole ++ n.fractionDigits) : ℚ) * 10 ^ n.scale

theorem Denotes.isFinite_iff {t : Tree} {v : Value} (denotes : Denotes t v) :
    v.isFinite = true ↔ ¬ t.Overflows := by
  rw [Value.isFinite_iff]
  constructor
  · rintro finite ⟨n, counts, other, beyond⟩
    have within := finite n.double (denotes.holds_float_iff.mpr ⟨n, counts, other, rfl⟩)
    exact absurd beyond (not_le.mpr ((Binary64.isFiniteNumber_ofDecimal _ _ _).mp within))
  · rintro fits x held
    obtain ⟨n, counts, other, rfl⟩ := denotes.holds_float_iff.mp held
    exact (Binary64.isFiniteNumber_ofDecimal _ _ _).mpr
      (not_le.mp fun beyond => fits ⟨n, counts, other, beyond⟩)

end Json

end PayloadCheck
