import PayloadCheck.Http.Body

namespace PayloadCheck

theorem eq_ok_of_toOption {ε α : Type} {result : Except ε α} {a : α} (given : result.toOption = some a) :
    result = .ok a := by
  cases result with
  | error e => exact nomatch given
  | ok b => exact congrArg Except.ok (Option.some.inj given)

/-- A record that a request brings is read from its content. -/
theorem Http.record_eq_ok {α : Type} {r : Request} {ofMembers : Members → Except (List FieldError) α}
    {a : α}
    (taken : (r.content.toOption.bind fun content => (content.record ofMembers).toOption) = some a) :
    ∃ content, r.content = .ok content ∧ content.record ofMembers = .ok a := by
  obtain ⟨content, read, record⟩ := Option.bind_eq_some_iff.mp taken
  exact ⟨content, eq_ok_of_toOption read, eq_ok_of_toOption record⟩

end PayloadCheck
