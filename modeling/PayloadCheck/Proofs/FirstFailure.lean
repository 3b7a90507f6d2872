import Mathlib.Logic.Relation

namespace PayloadCheck

variable {α σ : Type}

/-- A run over a list stops at the first item that is bad: all items before it have been dealt with. -/
theorem first_bad (fails builds : σ → List α → Prop) (next : σ → α → σ → Prop) (bad : α → Prop)
    (nil_fails : ∀ s, ¬ fails s []) (nil_builds : ∀ s, builds s [])
    (cons_fails : ∀ s item rest,
      fails s (item :: rest) ↔ bad item ∨ ∃ t, next s item t ∧ fails t rest)
    (cons_builds : ∀ s item rest, builds s (item :: rest) ↔ ∃ t, next s item t ∧ builds t rest)
    (s : σ) (items : List α) :
    fails s items ↔
      ∃ before item after, items = before ++ item :: after ∧ builds s before ∧ bad item := by
  induction items generalizing s with
  | nil => simp [nil_fails]
  | cons first rest ih =>
    rw [cons_fails]
    constructor
    · rintro (failing | ⟨t, step, later⟩)
      · exact ⟨[], first, rest, rfl, nil_builds s, failing⟩
      · obtain ⟨before, item, after, rfl, built, failing⟩ := (ih t).mp later
        exact ⟨first :: before, item, after, rfl, (cons_builds s _ _).mpr ⟨t, step, built⟩, failing⟩
    · rintro ⟨before, item, after, split, built, failing⟩
      cases before with
      | nil =>
        cases split
        exact Or.inl failing
      | cons head tail =>
        obtain ⟨rfl, rfl⟩ := List.cons.inj split
        obtain ⟨t, step, later⟩ := (cons_builds s _ _).mp built
        exact Or.inr ⟨t, step, (ih t).mpr ⟨tail, item, after, rfl, later, failing⟩⟩

/-- The same for a run that carries nothing along. -/
theorem first_bad_plain (fails builds : List α → Prop) (good bad : α → Prop)
    (nil_fails : ¬ fails []) (nil_builds : builds [])
    (cons_fails : ∀ item rest, fails (item :: rest) ↔ bad item ∨ good item ∧ fails rest)
    (cons_builds : ∀ item rest, builds (item :: rest) ↔ good item ∧ builds rest) (items : List α) :
    fails items ↔
      ∃ before item after, items = before ++ item :: after ∧ builds before ∧ bad item :=
  first_bad (fun _ : Unit => fails) (fun _ => builds) (fun _ item _ => good item) bad
    (fun _ => nil_fails) (fun _ => nil_builds)
    (by simpa using cons_fails) (by simpa using cons_builds) () items

theorem map_eq_ok {ε β : Type} {f : α → β} {result : Except ε α} {b : β} (built : result.map f = .ok b) :
    ∃ a, result = .ok a ∧ f a = b := by
  cases result with
  | error failure => exact nomatch built
  | ok a => exact ⟨a, rfl, Except.ok.inj built⟩

/-- What fails because it is bad, or because something smaller that it reaches does, reaches in the end
something bad. -/
theorem reaches_bad [SizeOf α] (fails bad : α → Prop) (reaches : α → α → Prop)
    (smaller : ∀ {a b}, reaches a b → sizeOf b < sizeOf a)
    (step : ∀ a, fails a ↔ bad a ∨ ∃ b, reaches a b ∧ fails b) (a : α) :
    fails a ↔ ∃ b, Relation.ReflTransGen reaches a b ∧ bad b := by
  constructor
  · intro failing
    -- There is no end to what can be reached, but each step reaches something smaller.
    induction size : sizeOf a using Nat.strongRecOn generalizing a with
    | ind n ih =>
      rcases (step a).mp failing with found | ⟨b, reached, failing⟩
      · exact ⟨a, .refl, found⟩
      · obtain ⟨c, further, found⟩ := ih _ (size ▸ smaller reached) b failing rfl
        exact ⟨c, .head reached further, found⟩
  · rintro ⟨b, reached, found⟩
    induction reached using Relation.ReflTransGen.head_induction_on with
    | refl => exact (step b).mpr (Or.inl found)
    | head reached _ ih => exact (step _).mpr (Or.inr ⟨_, reached, ih⟩)

theorem sizeOf_lt_middle [SizeOf α] (before after : List α) (item : α) :
    sizeOf item < sizeOf (before ++ item :: after) :=
  List.sizeOf_lt_of_mem (List.mem_append_right before List.mem_cons_self)

end PayloadCheck
