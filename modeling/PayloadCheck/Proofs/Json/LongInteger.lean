import Mathlib.Algebra.Group.Nat.Defs
import PayloadCheck.Json.Display
import PayloadCheck.Json.Parse

namespace PayloadCheck.Json

open Number

/-- An integer has more digits than are converted. -/
def IsLong (n : Int) : Prop := 10 ^ digitLimit ≤ n.natAbs

theorem text?_eq_none {n : Int} : text? n = none ↔ IsLong n := by
  have fits := Nat.length_toDigits_le_iff (b := 10) (n := n.natAbs) (k := digitLimit)
    (by decide) (by decide)
  unfold text? IsLong
  by_cases long : digitLimit < (Nat.toDigits 10 n.natAbs).length
  · simp only [long, if_true, true_iff]
    omega
  · simp only [long, if_false, reduceCtorEq, false_iff]
    omega

/-- A value is such an integer, or holds one at some depth. Texts and names do not count. -/
inductive Value.HoldsLong : Value → Prop
  | here {n : Int} : IsLong n → HoldsLong (.int n)
  | element {v : Value} {vs : List Value} : v ∈ vs → HoldsLong v → HoldsLong (.arr vs)
  | member {entry : String × Value} {members : List (String × Value)} :
      entry ∈ members → HoldsLong entry.2 → HoldsLong (.obj members)

namespace Value

theorem holdsLong_int {n : Int} : (Value.int n).HoldsLong ↔ IsLong n :=
  ⟨fun | .here long => long, .here⟩

theorem not_holdsLong_str {s : String} : ¬ (Value.str s).HoldsLong := nofun

theorem holdsLong_arr {vs : List Value} : (Value.arr vs).HoldsLong ↔ ∃ v ∈ vs, v.HoldsLong :=
  ⟨fun | .element among held => ⟨_, among, held⟩, fun ⟨_, among, held⟩ => .element among held⟩

theorem holdsLong_obj {members : List (String × Value)} :
    (Value.obj members).HoldsLong ↔ ∃ entry ∈ members, entry.2.HoldsLong :=
  ⟨fun | .member among held => ⟨_, among, held⟩, fun ⟨_, among, held⟩ => .member among held⟩

theorem HoldsLong.of_get? {v w : Value} {name : String} (found : v.get? name = some w)
    (held : w.HoldsLong) : v.HoldsLong := by
  obtain ⟨members, inside, at_name⟩ := Option.bind_eq_some_iff.mp found
  cases v with
  | obj own =>
    cases inside
    exact .member (mem_of_lookup? at_name) held
  | _ => exact nomatch inside

theorem HoldsLong.of_dig? {v w : Value} {names : List String} (found : v.dig? names = some w)
    (held : w.HoldsLong) : v.HoldsLong := by
  induction names generalizing v with
  | nil =>
    cases found
    exact held
  | cons name rest ih =>
    obtain ⟨inner, at_name, further⟩ := Option.bind_eq_some_iff.mp found
    exact .of_get? at_name (ih further)

end Value

mutual

theorem show?_eq_none (v : Value) : show? v = none ↔ v.HoldsLong := by
  cases v with
  | int n => simp only [show?, Option.map_eq_none_iff, text?_eq_none, Value.holdsLong_int]
  | arr vs => simp only [show?, Option.map_eq_none_iff, showElements?_eq_none vs, Value.holdsLong_arr]
  | obj members =>
    simp only [show?, Option.map_eq_none_iff, showMembers?_eq_none members, Value.holdsLong_obj]
  | _ => exact ⟨fun written => by simp [show?] at written, fun held => nomatch held⟩

theorem showElements?_eq_none (vs : List Value) :
    showElements? vs = none ↔ ∃ v ∈ vs, v.HoldsLong := by
  cases vs with
  | nil => simp [showElements?]
  | cons v rest =>
    simp only [showElements?, List.mem_cons, exists_eq_or_imp, ← show?_eq_none v,
      ← showElements?_eq_none rest]
    cases show? v <;> cases showElements? rest <;> simp

theorem showMembers?_eq_none (members : List (String × Value)) :
    showMembers? members = none ↔ ∃ entry ∈ members, entry.2.HoldsLong := by
  cases members with
  | nil => simp [showMembers?]
  | cons entry rest =>
    obtain ⟨name, v⟩ := entry
    simp only [showMembers?, List.mem_cons, exists_eq_or_imp, ← show?_eq_none v,
      ← showMembers?_eq_none rest]
    cases show? v <;> cases showMembers? rest <;> simp

end

theorem display?_eq_none (v : Value) : display? v = none ↔ v.HoldsLong := by
  cases v with
  | str s => exact ⟨fun written => by simp [display?] at written, fun held => nomatch held⟩
  | _ => simp only [display?, Option.map_eq_none_iff, show?_eq_none]

/-- A reader yields no value that holds an integer with too many digits. -/
def Reader.Short (read : Reader Value) : Prop :=
  ∀ text v rest, read text = .ok (v, rest) → ¬ v.HoldsLong

theorem digitsValue_lt (digits : List Char) : Text.digitsValue digits < 10 ^ digits.length := by
  -- Reading goes from the left, so the bound has to hold behind any value read so far.
  have fold : ∀ (digits : List Char) (value : Nat),
      digits.foldl (fun value c => 10 * value + (Text.digitValue? c).getD 0) value <
        (value + 1) * 10 ^ digits.length := by
    intro digits
    induction digits with
    | nil => simp
    | cons c rest ih =>
      intro value
      have digit : (Text.digitValue? c).getD 0 < 10 := by
        cases found : Text.digitValue? c with
        | none => decide
        | some d => exact Text.digitValue?_lt found
      have bound := ih (10 * value + (Text.digitValue? c).getD 0)
      have carried : 10 * value + (Text.digitValue? c).getD 0 + 1 ≤ (value + 1) * 10 := by omega
      have scaled := Nat.mul_le_mul_right (10 ^ rest.length) carried
      rw [List.foldl_cons, List.length_cons, Nat.pow_succ', ← Nat.mul_assoc]
      exact Nat.lt_of_lt_of_le bound scaled
  simpa [Text.digitsValue] using fold digits 0

theorem Numeral.value_short {n : Numeral} {v : Value} (read : n.value = .ok v) : ¬ v.HoldsLong := by
  unfold Numeral.value at read
  split at read
  · split at read
    · exact nomatch read
    · rename_i within
      cases read
      rw [Value.holdsLong_int]
      intro long
      have bound := digitsValue_lt n.whole
      have most := Nat.pow_le_pow_right (n := 10) (by decide) (Nat.le_of_not_lt within)
      unfold IsLong at long
      split at long <;> omega
  · cases read
    exact fun held => nomatch held

theorem number_short : Reader.Short number := by
  intro text v rest read
  unfold number at read
  cases found : numeral? text with
  | none => simp [found] at read
  | some numeral =>
    obtain ⟨n, after⟩ := numeral
    cases value : n.value with
    | error refusal => simp [found, value] at read
    | ok v =>
      simp only [found, value, Except.ok.injEq, Prod.mk.injEq] at read
      exact read.1 ▸ Numeral.value_short value

theorem plain_short (constants : Bool) : Reader.Short (plain constants) := by
  have constant : ∀ {name text rest v after},
      plain.constant constants name text rest = .ok (v, after) → ¬ v.HoldsLong := by
    intro name text rest v after read
    unfold plain.constant at read
    split at read
    · cases read
      exact fun held => nomatch held
    · exact nomatch read
  intro text v rest read
  unfold plain at read
  split at read
  · cases read
    exact fun held => nomatch held
  · cases read
    exact fun held => nomatch held
  · cases read
    exact fun held => nomatch held
  · exact constant read
  · exact constant read
  · exact constant read
  · exact number_short _ _ _ read

section

variable {item : Reader Value} (short : item.Short)
include short

theorem elements_short {bound : Nat} {text rest : List Char} {vs : List Value}
    (read : elements item bound text = .ok (vs, rest)) : ∀ v ∈ vs, ¬ v.HoldsLong := by
  induction bound generalizing text vs rest with
  | zero => exact nomatch read
  | succ bound ih =>
    rw [elements] at read
    cases first : item text with
    | error refusal => simp [first] at read
    | ok found =>
      obtain ⟨v, after⟩ := found
      have fine := short text v after first
      simp only [first] at read
      split at read
      · cases read
        simpa using fine
      · split at read
        · rename_i others
          cases read
          simpa using ⟨fine, ih others⟩
        · exact nomatch read
      · exact nomatch read

theorem member_short {text rest : List Char} {entry : String × Value}
    (read : member item text = .ok (entry, rest)) : ¬ entry.2.HoldsLong := by
  unfold member at read
  split at read
  · split at read
    · exact nomatch read
    · split at read
      · split at read
        · rename_i inner
          cases read
          exact short _ _ _ inner
        · exact nomatch read
      · exact nomatch read
  · exact nomatch read

theorem members_short {bound : Nat} {text rest : List Char} {entries : List (String × Value)}
    (read : members item bound text = .ok (entries, rest)) :
    ∀ entry ∈ entries, ¬ entry.2.HoldsLong := by
  induction bound generalizing text entries rest with
  | zero => exact nomatch read
  | succ bound ih =>
    rw [members] at read
    cases first : member item text with
    | error refusal => simp [first] at read
    | ok found =>
      obtain ⟨entry, after⟩ := found
      have fine := member_short short first
      simp only [first] at read
      split at read
      · cases read
        simpa using fine
      · split at read
        · rename_i others
          cases read
          simpa using ⟨fine, fun name v among => ih others (name, v) among⟩
        · exact nomatch read
      · exact nomatch read

theorem array_short : Reader.Short (array item) := by
  intro text v rest read
  unfold array at read
  split at read
  · cases read
    simp [Value.holdsLong_arr]
  · split at read
    · rename_i inner
      cases read
      simpa [Value.holdsLong_arr] using elements_short short inner
    · exact nomatch read

theorem object_short : Reader.Short (object item) := by
  intro text v rest read
  unfold object at read
  split at read
  · cases read
    simp [Value.holdsLong_obj]
  · split at read
    · rename_i inner
      cases read
      rintro (_ | _ | ⟨among, held⟩)
      exact members_short short inner _ (mem_of_mem_distinct among) held
    · exact nomatch read

end

theorem valueWith_short (constants : Bool) {nested : Option (Reader Value)}
    (short : ∀ item ∈ nested, Reader.Short item) : Reader.Short (valueWith constants nested) := by
  intro text v rest read
  unfold valueWith at read
  split at read
  · split at read
    · cases read
      exact fun held => nomatch held
    · exact nomatch read
  · cases nested with
    | none => exact nomatch read
    | some item => exact array_short (short item rfl) _ _ _ read
  · cases nested with
    | none => exact nomatch read
    | some item => exact object_short (short item rfl) _ _ _ read
  · exact plain_short constants _ _ _ read

theorem value_short (constants : Bool) (depth : Nat) : Reader.Short (value constants depth) := by
  induction depth with
  | zero => exact valueWith_short constants fun item among => nomatch among
  | succ depth ih => exact valueWith_short constants fun item among => Option.some.inj among ▸ ih

theorem decode_short {admission : Admission} {text : List Char} {v : Value}
    (read : decode admission text = .ok v) : ¬ v.HoldsLong := by
  unfold decode at read
  split at read
  · exact nomatch read
  · split at read
    · exact nomatch read
    · rename_i first
      split at read
      · cases read
        exact value_short _ _ _ _ _ first
      · exact nomatch read

theorem parse_short {text : List Char} {d : Diagnosis} {v : Value} (read : parse text = (d, v)) :
    ¬ v.HoldsLong := by
  unfold parse at read
  split at read
  · cases read
    exact fun held => nomatch held
  · split at read
    · rename_i found
      cases read
      exact decode_short found
    · cases read
      exact fun held => nomatch held

end PayloadCheck.Json
