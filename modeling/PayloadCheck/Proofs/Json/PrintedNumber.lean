import Mathlib.Algebra.Group.Nat.Defs
import Mathlib.Tactic.IntervalCases
import PayloadCheck.Json.Finite
import PayloadCheck.Json.Print
import PayloadCheck.Proofs.Json.Lexeme

namespace PayloadCheck.Json

open Number

theorem digits_toDigits (n : Nat) : Digits (Nat.toDigits 10 n) := by
  refine ⟨Nat.toDigits_ne_nil, fun c among => ?_⟩
  have digit := Nat.isDigit_of_mem_toDigits (by decide) (by decide) among
  exact Char.isDigit_iff_toNat.mp digit

theorem head_toDigits {n : Nat} (positive : 0 < n) : (Nat.toDigits 10 n).head? ≠ some '0' := by
  induction n using Nat.strongRecOn with
  | _ n ih =>
    by_cases small : n < 10
    · rw [Nat.toDigits_of_lt_base small]
      interval_cases n <;> decide
    · have before := ih (n / 10) (by omega) (by omega)
      rw [Nat.toDigits_of_base_le (by decide) (by omega), List.head?_append]
      cases digits : Nat.toDigits 10 (n / 10) with
      | nil => exact absurd digits Nat.toDigits_ne_nil
      | cons c rest => rwa [digits] at before

theorem wholeText_toDigits (n : Nat) : WholeText (Nat.toDigits 10 n) := by
  rcases Nat.eq_zero_or_pos n with rfl | positive
  · exact Or.inl rfl
  · exact Or.inr ⟨digits_toDigits n, head_toDigits positive⟩

theorem decimal_eq (ds : List Char) : decimal ds = Nat.ofDigitChars 10 ds 0 := by
  induction ds using List.reverseRecOn with
  | nil => rfl
  | append_singleton ds c ih =>
    have number : decimal (ds ++ [c]) = (c.toNat - '0'.toNat) + 10 * decimal ds := by
      simp [decimal, Nat.ofDigits_cons]
    rw [number, ih, Nat.ofDigitChars, Nat.ofDigitChars, List.foldl_append, Nat.add_comm]
    rfl

theorem decimal_toDigits (n : Nat) : decimal (Nat.toDigits 10 n) = n := by
  rw [decimal_eq, Nat.ofDigitChars_ten_toDigits]

theorem toList_sign (negative : Bool) : (if negative then "-" else "").toList = signText negative := by
  cases negative <;> rfl

/-- The text of an integer is one in the grammar, with no more digits than are converted. -/
theorem text?_written {n : Int} {s : String} (written : text? n = some s) :
    ∃ numeral, NumberText numeral s.toList ∧ numeral.IsInteger ∧ numeral.whole.length ≤ digitLimit ∧
      signed numeral.negative (decimal numeral.whole) = n := by
  have short : ¬ digitLimit < (Nat.toDigits 10 n.natAbs).length := fun long => by
    simp [text?, long] at written
  rw [text?, if_neg short] at written
  cases written
  refine ⟨⟨decide (n < 0), Nat.toDigits 10 n.natAbs, none, none⟩, ?_, ⟨rfl, rfl⟩,
    Nat.le_of_not_lt short, ?_⟩
  · have sign := toList_sign (decide (n < 0))
    simp only [decide_eq_true_eq] at sign
    have parts := @NumberText.parts (decide (n < 0)) _ _ _ _ _ (wholeText_toDigits n.natAbs)
      .absent .absent
    rw [List.append_nil, List.append_nil] at parts
    rwa [String.toList_append, sign, String.toList_ofList]
  · dsimp only
    rw [decimal_toDigits, signed]
    split
    · rename_i negative
      have below := of_decide_eq_true negative
      omega
    · rename_i other
      have above : ¬ n < 0 := fun below => other (decide_eq_true below)
      omega

theorem scaled_pos {num den : Nat} (positive : 0 < num) (exponent : Int) :
    0 < (scaled num den exponent).1 := by
  unfold scaled
  split
  · exact positive
  · exact Nat.mul_pos positive (Nat.pow_pos (by decide))

/-- A decimal in an interval above zero is above zero. -/
theorem nearestWith_pos {mantissa quarterLow quarterHigh num den : Nat} {exponent : Int} {x : Decimal}
    (found : nearestWith mantissa quarterLow quarterHigh num den exponent = some x)
    (positive : 0 < quarterLow * num) : 0 < x.digits := by
  have low := @scaled_pos (quarterLow * num) den positive exponent
  unfold nearestWith at found
  dsimp only at found
  generalize (scaled (quarterLow * num) den exponent).1 = least at found low
  have above (digits unit high : Nat) (closed : Bool)
      (fits : (if closed = true then decide (least ≤ digits * unit) && decide (digits * unit ≤ high)
        else decide (least < digits * unit) && decide (digits * unit < high)) = true) :
      0 < digits := by
    refine Nat.pos_of_ne_zero fun zero => ?_
    subst zero
    cases closed
    · simp only [Nat.zero_mul, Bool.false_eq_true, if_false, Bool.and_eq_true, decide_eq_true_eq] at fits
      omega
    · simp only [Nat.zero_mul, if_true, Bool.and_eq_true, decide_eq_true_eq] at fits
      omega
  split at found
  · rename_i inside _
    cases found
    have first := above _ _ _ _ inside
    dsimp only
    split <;> omega
  · rename_i inside _
    cases found
    exact above _ _ _ _ inside
  · cases found
    exact Nat.succ_pos _
  · exact nomatch found

theorem shortest_pos {mantissa : Nat} (positive : 0 < mantissa) (exponent : Int) :
    0 < (shortest mantissa exponent).digits := by
  unfold shortest
  dsimp only
  cases found : List.findSome? _ (List.range 17) with
  | none => exact positive
  | some x =>
    obtain ⟨count, _, near⟩ := List.exists_of_findSome?_eq_some found
    refine nearestWith_pos near (Nat.mul_pos ?_ ?_)
    · split <;> omega
    · unfold Binary64.magnitude
      split
      · rw [Nat.one_mul]
        exact Nat.pow_pos (by decide)
      · exact Nat.one_pos

/-- Taking zeros off the end leaves the first digit in place, since that one is no zero. -/
theorem significand_digits {x : Decimal} (positive : 0 < x.digits) :
    Digits x.significand.1 ∧ x.significand.1.head? ≠ some '0' := by
  have head := head_toDigits positive
  obtain ⟨nonempty, digits⟩ := digits_toDigits x.digits
  have split := congrArg List.reverse
    (List.takeWhile_append_dropWhile (p := (· == '0')) (l := (Nat.toDigits 10 x.digits).reverse))
  rw [List.reverse_append, List.reverse_reverse] at split
  have zeros : ∀ c ∈ ((Nat.toDigits 10 x.digits).reverse.takeWhile (· == '0')).reverse, c = '0' :=
    fun c among => by simpa using List.all_eq_true.mp List.all_takeWhile c (List.mem_reverse.mp among)
  change x.significand.1 ++ _ = _ at split
  cases kept : x.significand.1 with
  | nil =>
    rw [kept, List.nil_append] at split
    rw [split] at zeros
    cases all : Nat.toDigits 10 x.digits with
    | nil => exact absurd all nonempty
    | cons c rest =>
      rw [all] at zeros head
      exact absurd (congrArg some (zeros c List.mem_cons_self)) head
  | cons c rest =>
    rw [kept] at split
    rw [← split] at head digits
    exact ⟨⟨List.cons_ne_nil _ _, fun d among => digits d (List.mem_append_left _ among)⟩, head⟩

theorem zeros_digits (count : Nat) : ∀ c ∈ List.replicate count '0', '0' ≤ c ∧ c ≤ '9' := by
  intro c among
  rw [List.eq_of_mem_replicate among]
  decide

theorem Digits.split {ds : List Char} (digits : Digits ds) {place : Nat} (front : 0 < place)
    (behind : place < ds.length) : Digits (ds.take place) ∧ Digits (ds.drop place) := by
  obtain ⟨nonempty, each⟩ := digits
  refine ⟨⟨?_, fun c among => each c (List.mem_of_mem_take among)⟩,
    ⟨?_, fun c among => each c (List.mem_of_mem_drop among)⟩⟩
  · simpa [List.take_eq_nil_iff] using ⟨front.ne', nonempty⟩
  · simpa [List.drop_eq_nil_iff] using behind

/-- An exponent has a sign and digits. -/
theorem exponentText_written (exponent : Int) :
    ∃ parts, ExponentText (some parts) ('e' :: (exponentText exponent).toList) := by
  have digits : Digits (if (toString exponent.natAbs).length < 2 then "0" ++ toString exponent.natAbs
      else toString exponent.natAbs).toList := by
    have plain := digits_toDigits exponent.natAbs
    rw [Nat.toString_eq_ofList_toDigits]
    split
    · simp only [String.toList_append, String.toList_ofList]
      exact ⟨List.cons_ne_nil _ _, List.forall_mem_cons.mpr ⟨by decide, plain.2⟩⟩
    · rwa [String.toList_ofList]
  unfold exponentText
  rw [String.toList_append]
  by_cases negative : exponent < 0
  · rw [if_pos negative]
    exact ⟨_, .minus (Or.inl rfl) digits⟩
  · rw [if_neg negative]
    exact ⟨_, .plus (Or.inl rfl) digits⟩

/-- Scientific notation: one digit, the others behind a point if there are any, and an exponent. -/
theorem scientific_written {ds : List Char} (digits : Digits ds) (head : ds.head? ≠ some '0')
    (negative : Bool) (exponent : Int) :
    ∃ numeral,
      NumberText numeral
        ((if negative then "-" else "") ++ String.ofList (ds.take 1) ++
          (if (ds.drop 1).isEmpty then "" else "." ++ String.ofList (ds.drop 1)) ++ "e" ++
            exponentText exponent).toList ∧
      ¬ numeral.IsInteger := by
  obtain ⟨parts, exponential⟩ := exponentText_written exponent
  obtain ⟨nonempty, each⟩ := digits
  cases ds with
  | nil => exact absurd rfl nonempty
  | cons c rest =>
    obtain ⟨first, others⟩ := List.forall_mem_cons.mp each
    have whole : WholeText [c] :=
      Or.inr ⟨⟨List.cons_ne_nil _ _, List.forall_mem_singleton.mpr first⟩, head⟩
    have fraction : ∃ fraction,
        FractionText fraction (if rest.isEmpty then "" else "." ++ String.ofList rest).toList := by
      cases rest with
      | nil => exact ⟨none, .absent⟩
      | cons d more =>
        refine ⟨some (d :: more), ?_⟩
        rw [if_neg (by simp)]
        simp only [String.toList_append, String.toList_ofList]
        exact .present ⟨List.cons_ne_nil _ _, others⟩
    obtain ⟨fraction, fractional⟩ := fraction
    refine ⟨⟨negative, [c], fraction, some parts⟩, ?_, fun integer => nomatch integer.2⟩
    have written := @NumberText.parts negative _ _ _ _ _ whole fractional exponential
    simp only [String.toList_append, toList_sign, String.toList_ofList, List.append_assoc]
    exact written

/-- Positional notation: digits before the point and behind it. -/
theorem positional_written {whole fraction : List Char} (front : WholeText whole)
    (behind : Digits fraction) (negative : Bool) :
    NumberText ⟨negative, whole, some fraction, none⟩
      (signText negative ++ (whole ++ '.' :: fraction)) := by
  have written := @NumberText.parts negative _ _ _ _ _ front (.present behind) .absent
  rwa [List.append_nil] at written

/-- A finite number is written with a fraction, an exponent, or both. -/
theorem floatText_written {x : Binary64} (finite : isFiniteNumber x = true) :
    ∃ numeral, NumberText numeral (floatFormat.text x).toList ∧ ¬ numeral.IsInteger := by
  have zero : Digits ['0'] := ⟨List.cons_ne_nil _ _, List.forall_mem_singleton.mpr (by decide)⟩
  cases x with
  | finite negative mantissa exponent =>
    have positional {whole fraction : List Char} (front : WholeText whole) (behind : Digits fraction) :
        ∃ numeral, NumberText numeral (signText negative ++ (whole ++ '.' :: fraction)) ∧
          ¬ numeral.IsInteger :=
      ⟨_, positional_written front behind negative, fun integer => nomatch integer.1⟩
    unfold FloatFormat.text
    dsimp only
    split
    · rw [String.toList_append, toList_sign]
      exact positional (Or.inl rfl) zero
    · rename_i other
      have positive : 0 < mantissa := Nat.pos_of_ne_zero fun zero => other (by simp [zero])
      obtain ⟨digits, head⟩ := significand_digits (shortest_pos positive exponent)
      generalize (shortest mantissa exponent).significand = parts at digits head ⊢
      obtain ⟨ds, place⟩ := parts
      dsimp only at digits head ⊢
      obtain ⟨nonempty, each⟩ := digits
      split
      · exact scientific_written ⟨nonempty, each⟩ head negative (place - 1)
      · split
        · simp only [String.toList_append, toList_sign, String.toList_ofList, List.append_assoc]
          have behind : Digits (List.replicate (-place).toNat '0' ++ ds) :=
            ⟨List.append_ne_nil_of_right_ne_nil _ nonempty,
              List.forall_mem_append.mpr ⟨zeros_digits _, each⟩⟩
          exact positional (Or.inl rfl) behind
        · split
          · simp only [String.toList_append, toList_sign, String.toList_ofList, List.append_assoc]
            rw [← List.append_assoc ds]
            refine positional (Or.inr ⟨⟨List.append_ne_nil_of_left_ne_nil nonempty _,
              List.forall_mem_append.mpr ⟨each, zeros_digits _⟩⟩, ?_⟩) zero
            cases ds with
            | nil => exact absurd rfl nonempty
            | cons c rest => exact head
          · rename_i above inside
            obtain ⟨front, behind⟩ := Digits.split ⟨nonempty, each⟩ (by omega : 0 < place.toNat) (by omega)
            simp only [String.toList_append, toList_sign, String.toList_ofList, List.append_assoc]
            refine positional (Or.inr ⟨front, ?_⟩) behind
            rwa [List.head?_take, if_neg (by omega)]
  | _ => exact nomatch finite

end PayloadCheck.Json
