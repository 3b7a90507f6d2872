import Mathlib.Data.List.Basic
import Mathlib.Data.List.Perm.Subperm

namespace PayloadCheck.Schema

/-- The rank of a check: the numbers of the steps that lead to it. -/
abbrev Rank := List Nat

/-- A list holds each thing that is demanded at a rank once, and nothing else, in the order of the
ranks. -/
def Exact {β : Type} (demanded : Rank → β → Prop) (found : List β) : Prop :=
  ∃ ranked : List (Rank × β), ranked.map (·.2) = found ∧ ranked.Pairwise (·.1 < ·.1) ∧
    ∀ rank b, (rank, b) ∈ ranked ↔ demanded rank b

/-- What is demanded of the items of a list that are numbered from `first` on. -/
def Numbered {α β : Type} (first : Nat) (items : List α) (demanded : Nat → α → Rank → β → Prop)
    (rank : Rank) (b : β) : Prop :=
  ∃ i a inner, items[i]? = some a ∧ rank = (first + i) :: inner ∧ demanded (first + i) a inner b

variable {α β γ : Type} {p q : Rank → β → Prop} {xs ys : List β}

theorem Exact.congr (exact : Exact p xs) (same : ∀ rank b, p rank b ↔ q rank b) : Exact q xs := by
  obtain ⟨ranked, values, sorted, all⟩ := exact
  exact ⟨ranked, values, sorted, fun rank b => (all rank b).trans (same rank b)⟩

theorem Exact.none (nothing : ∀ rank b, ¬ p rank b) : Exact p [] :=
  ⟨[], rfl, .nil, fun rank b => by simp [nothing rank b]⟩

theorem Exact.single (rank : Rank) {b : β} (only : ∀ rank' b', p rank' b' ↔ rank' = rank ∧ b' = b) :
    Exact p [b] :=
  ⟨[(rank, b)], rfl, List.pairwise_singleton _ _, fun rank' b' => by simp [only rank' b']⟩

theorem Exact.append (first : Exact p xs) (second : Exact q ys)
    (ordered : ∀ rank b rank' b', p rank b → q rank' b' → rank < rank') :
    Exact (fun rank b => p rank b ∨ q rank b) (xs ++ ys) := by
  obtain ⟨ranked, rfl, sorted, all⟩ := first
  obtain ⟨ranked', rfl, sorted', all'⟩ := second
  refine ⟨ranked ++ ranked', List.map_append, List.pairwise_append.mpr ⟨sorted, sorted', ?_⟩, ?_⟩
  · rintro ⟨rank, b⟩ member ⟨rank', b'⟩ member'
    exact ordered rank b rank' b' ((all rank b).mp member) ((all' rank' b').mp member')
  · intro rank b
    rw [List.mem_append, all, all']

theorem Exact.map (exact : Exact p xs) (f : β → γ) :
    Exact (fun rank c => ∃ b, p rank b ∧ c = f b) (xs.map f) := by
  obtain ⟨ranked, rfl, sorted, all⟩ := exact
  refine ⟨ranked.map fun entry => (entry.1, f entry.2), by simp, ?_, ?_⟩
  · exact List.pairwise_map.mpr sorted
  · intro rank c
    simp only [List.mem_map, Prod.mk.injEq, Prod.exists, all]
    constructor
    · rintro ⟨_, b, demanded, rfl, rfl⟩
      exact ⟨b, demanded, rfl⟩
    · rintro ⟨b, demanded, rfl⟩
      exact ⟨rank, b, demanded, rfl, rfl⟩

/-- A step in front of all ranks keeps their order. -/
theorem Exact.nest (exact : Exact p xs) (k : Nat) :
    Exact (fun rank b => ∃ inner, rank = k :: inner ∧ p inner b) xs := by
  obtain ⟨ranked, rfl, sorted, all⟩ := exact
  refine ⟨ranked.map fun entry => (k :: entry.1, entry.2), by simp, ?_, ?_⟩
  · refine List.pairwise_map.mpr (sorted.imp ?_)
    intro a b below
    exact List.cons_lt_cons_iff.mpr (Or.inr ⟨rfl, below⟩)
  · intro rank b
    simp only [List.mem_map, Prod.mk.injEq, Prod.exists, all]
    constructor
    · rintro ⟨inner, _, demanded, rfl, rfl⟩
      exact ⟨inner, rfl, demanded⟩
    · rintro ⟨inner, rfl, demanded⟩
      exact ⟨inner, b, demanded, rfl, rfl⟩

theorem Numbered.cons_iff {first : Nat} {a : α} {rest : List α} {demanded : Nat → α → Rank → β → Prop}
    {rank : Rank} {b : β} :
    Numbered first (a :: rest) demanded rank b ↔
      (∃ inner, rank = first :: inner ∧ demanded first a inner b) ∨
        Numbered (first + 1) rest demanded rank b := by
  constructor
  · rintro ⟨i, a', inner, atItem, rfl, asked⟩
    cases i with
    | zero =>
      obtain rfl : a = a' := by simpa using atItem
      exact Or.inl ⟨inner, rfl, asked⟩
    | succ i =>
      have number : first + (i + 1) = first + 1 + i := by omega
      rw [number] at asked ⊢
      exact Or.inr ⟨i, a', inner, by simpa using atItem, rfl, asked⟩
  · rintro (⟨inner, rfl, asked⟩ | ⟨i, a', inner, atItem, rfl, asked⟩)
    · exact ⟨0, a, inner, rfl, rfl, asked⟩
    · have number : first + 1 + i = first + (i + 1) := by omega
      rw [number] at asked ⊢
      exact ⟨i + 1, a', inner, by simpa using atItem, rfl, asked⟩

theorem Exact.numbered_nil {first : Nat} {demanded : Nat → α → Rank → β → Prop} :
    Exact (Numbered first [] demanded) [] :=
  .none fun _ _ ⟨_, _, _, atItem, _⟩ => by simp at atItem

theorem Exact.numbered_cons {first : Nat} {a : α} {rest : List α}
    {demanded : Nat → α → Rank → β → Prop} (here : Exact (demanded first a) xs)
    (behind : Exact (Numbered (first + 1) rest demanded) ys) :
    Exact (Numbered first (a :: rest) demanded) (xs ++ ys) := by
  refine ((here.nest first).append behind ?_).congr fun rank b => Numbered.cons_iff.symm
  rintro _ _ _ _ ⟨inner, rfl, _⟩ ⟨i, _, inner', _, rfl, _⟩
  exact List.cons_lt_cons_iff.mpr (Or.inl (by omega))

/-- Items numbered one after the other come before items numbered from their end on. -/
theorem Numbered.lt {α' : Type} {first next : Nat} {items : List α} {others : List α'}
    {demanded : Nat → α → Rank → β → Prop} {demanded' : Nat → α' → Rank → β → Prop}
    (apart : first + items.length ≤ next) {rank rank' : Rank} {b b' : β}
    (asked : Numbered first items demanded rank b) (asked' : Numbered next others demanded' rank' b') :
    rank < rank' := by
  obtain ⟨i, _, inner, atItem, rfl, _⟩ := asked
  obtain ⟨j, _, inner', _, rfl, _⟩ := asked'
  have bound := (List.getElem?_eq_some_iff.mp atItem).1
  exact List.cons_lt_cons_iff.mpr (Or.inl (by omega))

theorem nodup_of_ranked {ranked : List (Rank × β)} (sorted : ranked.Pairwise (·.1 < ·.1)) :
    ranked.Nodup :=
  sorted.imp fun below same => absurd (same ▸ below) (List.lt_irrefl _)

/-- There is only one list that holds exactly what is demanded. -/
theorem Exact.unique (first : Exact p xs) (second : Exact p ys) : xs = ys := by
  obtain ⟨ranked, rfl, sorted, all⟩ := first
  obtain ⟨ranked', rfl, sorted', all'⟩ := second
  have same : ranked.Perm ranked' :=
    (List.perm_ext_iff_of_nodup (nodup_of_ranked sorted) (nodup_of_ranked sorted')).mpr fun entry =>
      (all entry.1 entry.2).trans (all' entry.1 entry.2).symm
  have ordered : ranked = ranked' :=
    same.eq_of_pairwise (fun a b _ _ below above => absurd above (List.lt_asymm below)) sorted sorted'
  rw [ordered]

/-- Where only some ranks count, nothing is left out exactly if all that is demanded has such a rank. -/
theorem Exact.eq_iff {counts : Rank → Prop} (all : Exact p xs)
    (some : Exact (fun rank b => p rank b ∧ counts rank) ys) :
    xs = ys ↔ ∀ rank b, p rank b → counts rank := by
  constructor
  · rintro rfl rank b asked
    obtain ⟨ranked, values, sorted, whole⟩ := all
    obtain ⟨ranked', values', sorted', part⟩ := some
    have among : ranked' ⊆ ranked := fun entry member =>
      (whole entry.1 entry.2).mpr ((part entry.1 entry.2).mp member).1
    have length : ranked.length = ranked'.length := by
      rw [← List.length_map (·.2), values, ← values', List.length_map]
    have same : ranked'.Perm ranked :=
      ((nodup_of_ranked sorted').subperm among).perm_of_length_le (Nat.le_of_eq length)
    exact ((part rank b).mp (same.mem_iff.mpr ((whole rank b).mpr asked))).2
  · intro every
    exact all.unique (some.congr fun rank b => and_iff_left_of_imp (every rank b))

end PayloadCheck.Schema
