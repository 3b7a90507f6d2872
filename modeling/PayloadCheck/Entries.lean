namespace PayloadCheck

/-- The value of the first entry with a name. -/
def lookup? {α : Type} (name : String) : List (String × α) → Option α
  | [] => none
  | (key, value) :: rest => if key = name then some value else lookup? name rest

/-- Sets the value of a name: a known name keeps its place, a new one goes to the end. -/
def assign {α : Type} (name : String) (value : α) : List (String × α) → List (String × α)
  | [] => [(name, value)]
  | (key, old) :: rest =>
    if key = name then (key, value) :: rest else (key, old) :: assign name value rest

/-- The entries of a list with each name once: at its first place, with its last value. -/
def distinct {α : Type} (entries : List (String × α)) : List (String × α) :=
  entries.foldl (fun known entry => assign entry.1 entry.2 known) []

theorem lookup?_assign {α : Type} (name other : String) (value : α) (entries : List (String × α)) :
    lookup? other (assign name value entries) =
      if name = other then some value else lookup? other entries := by
  induction entries with
  | nil => simp [assign, lookup?]
  | cons entry rest ih =>
    obtain ⟨key, old⟩ := entry
    by_cases same : key = name
    · by_cases hit : name = other <;> simp [assign, lookup?, same, hit]
    · by_cases hit : key = other
      · have : name ≠ other := fun h => same (hit.trans h.symm)
        simp [assign, lookup?, hit, this, Ne.symm this]
      · simp [assign, lookup?, same, hit, ih]

theorem lookup?_append {α : Type} (name : String) (before after : List (String × α)) :
    lookup? name (before ++ after) = (lookup? name before).or (lookup? name after) := by
  induction before with
  | nil => rfl
  | cons entry rest ih =>
    obtain ⟨key, value⟩ := entry
    by_cases same : key = name <;> simp [lookup?, same, ih]

theorem mem_of_lookup? {α : Type} {name : String} {value : α} {entries : List (String × α)}
    (found : lookup? name entries = some value) : (name, value) ∈ entries := by
  induction entries with
  | nil => simp [lookup?] at found
  | cons entry rest ih =>
    obtain ⟨key, first⟩ := entry
    by_cases same : key = name
    · simp_all [lookup?]
    · exact List.mem_cons_of_mem _ (ih (by simpa [lookup?, same] using found))

theorem mem_of_mem_assign {α : Type} {name : String} {value : α} {entries : List (String × α)}
    {entry : String × α} (member : entry ∈ assign name value entries) :
    entry = (name, value) ∨ entry ∈ entries := by
  induction entries with
  | nil => exact Or.inl (List.mem_singleton.mp member)
  | cons first rest ih =>
    obtain ⟨key, old⟩ := first
    rw [assign] at member
    split at member
    · rename_i same
      rcases List.mem_cons.mp member with hit | later
      · exact Or.inl (same ▸ hit)
      · exact Or.inr (List.mem_cons_of_mem _ later)
    · rcases List.mem_cons.mp member with hit | later
      · exact Or.inr (hit ▸ List.mem_cons_self)
      · exact (ih later).imp_right (List.mem_cons_of_mem _)

theorem lookup?_map {α β : Type} (f : α → β) (name : String) (entries : List (String × α)) :
    lookup? name (entries.map fun entry => (entry.1, f entry.2)) = (lookup? name entries).map f := by
  induction entries with
  | nil => rfl
  | cons entry rest ih =>
    obtain ⟨key, value⟩ := entry
    by_cases same : key = name <;> simp [lookup?, same, ih]

theorem map_assign {α β : Type} (f : α → β) (name : String) (value : α)
    (entries : List (String × α)) :
    (assign name value entries).map (fun entry => (entry.1, f entry.2)) =
      assign name (f value) (entries.map fun entry => (entry.1, f entry.2)) := by
  induction entries with
  | nil => rfl
  | cons entry rest ih =>
    obtain ⟨key, old⟩ := entry
    by_cases same : key = name <;> simp [assign, same, ih]

theorem assign_of_lookup? {α : Type} {name : String} {value : α} {entries : List (String × α)}
    (found : lookup? name entries = some value) : assign name value entries = entries := by
  induction entries with
  | nil => exact nomatch found
  | cons entry rest ih =>
    obtain ⟨key, old⟩ := entry
    by_cases same : key = name
    · have : old = value := by simpa [lookup?, same] using found
      simp [assign, same, this]
    · have later : lookup? name rest = some value := by simpa [lookup?, same] using found
      simp [assign, same, ih later]

theorem lookup?_eq_none {α : Type} {name : String} {entries : List (String × α)} :
    lookup? name entries = none ↔ ∀ entry ∈ entries, entry.1 ≠ name := by
  induction entries with
  | nil => simp [lookup?]
  | cons entry rest ih =>
    obtain ⟨key, value⟩ := entry
    by_cases same : key = name <;> simp [lookup?, same, ih]

theorem lookup?_of_mem {α : Type} {name : String} {value : α} {entries : List (String × α)}
    (each : (entries.map (·.1)).Nodup) (member : (name, value) ∈ entries) :
    lookup? name entries = some value := by
  induction entries with
  | nil => exact nomatch member
  | cons entry rest ih =>
    obtain ⟨key, first⟩ := entry
    obtain ⟨fresh, others⟩ := List.nodup_cons.mp each
    rcases List.mem_cons.mp member with hit | later
    · cases hit
      simp [lookup?]
    · have other : key ≠ name := fun same => fresh (List.mem_map.mpr ⟨_, later, same.symm⟩)
      simp [lookup?, other, ih others later]

/-- A new name goes to the end. -/
theorem assign_of_lookup?_none {α : Type} {name : String} (value : α) {entries : List (String × α)}
    (new : lookup? name entries = none) : assign name value entries = entries ++ [(name, value)] := by
  induction entries with
  | nil => rfl
  | cons entry rest ih =>
    obtain ⟨key, old⟩ := entry
    by_cases same : key = name
    · simp [lookup?, same] at new
    · have later : lookup? name rest = none := by simpa [lookup?, same] using new
      simp [assign, same, ih later]

theorem mem_of_mem_distinct {α : Type} {entries : List (String × α)} {entry : String × α}
    (member : entry ∈ distinct entries) : entry ∈ entries := by
  have fold : ∀ (entries known : List (String × α)),
      entry ∈ entries.foldl (fun known entry => assign entry.1 entry.2 known) known →
        entry ∈ known ∨ entry ∈ entries := by
    intro entries
    induction entries with
    | nil => exact fun known member => Or.inl member
    | cons first rest ih =>
      intro known member
      rcases ih _ member with old | later
      · rcases mem_of_mem_assign old with rfl | old
        · exact Or.inr List.mem_cons_self
        · exact Or.inl old
      · exact Or.inr (List.mem_cons_of_mem _ later)
  exact (fold entries [] member).resolve_left List.not_mem_nil

def without {α : Type} (name : String) (entries : List (String × α)) : List (String × α) :=
  entries.filter (·.1 ≠ name)

theorem lookup?_without {α : Type} (name other : String) (entries : List (String × α)) :
    lookup? other (without name entries) = if name = other then none else lookup? other entries := by
  unfold without
  induction entries with
  | nil => simp [lookup?]
  | cons entry rest ih =>
    obtain ⟨key, value⟩ := entry
    by_cases gone : key = name
    · subst gone
      rw [List.filter_cons_of_neg (by simp), ih]
      by_cases hit : key = other <;> simp [lookup?, hit]
    · rw [List.filter_cons_of_pos (by simpa using gone), lookup?, lookup?, ih]
      by_cases hit : key = other
      · have kept : name ≠ other := fun same => gone (hit.trans same.symm)
        simp [hit, kept]
      · simp [hit]

end PayloadCheck
