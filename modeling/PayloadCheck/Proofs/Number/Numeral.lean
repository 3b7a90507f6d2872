import Mathlib.Data.List.Basic
import Mathlib.Data.List.TakeWhile
import PayloadCheck.Number.Integer

namespace PayloadCheck.Number

open Text

/-- Digits with single underscores between them, and the digits alone. -/
inductive DigitsText : List Char → List Char → Prop
  | last {c : Char} : isDecimalDigit c = true → DigitsText [c] [c]
  | next {c : Char} {text digits : List Char} :
      isDecimalDigit c = true → DigitsText text digits → DigitsText (c :: text) (c :: digits)
  | joined {c : Char} {text digits : List Char} :
      isDecimalDigit c = true → DigitsText text digits → DigitsText (c :: '_' :: text) (c :: digits)

/-- A sign that may be left out, and whether it makes a number negative. -/
inductive SignText : Bool → List Char → Prop
  | none : SignText false []
  | plus : SignText false ['+']
  | minus : SignText true ['-']

/-- The integer that a text writes, with no more digits than are converted. -/
inductive IntegerText : List Char → Int → Prop
  | written {before sign text digits behind : List Char} {negative : Bool} :
      (∀ c ∈ before, isWhiteSpace c = true) → SignText negative sign → DigitsText text digits →
      (∀ c ∈ behind, isWhiteSpace c = true) → digits.length ≤ digitLimit →
      IntegerText (before ++ (sign ++ text) ++ behind)
        (if negative then -(digitsValue digits : Int) else digitsValue digits)

theorem isDecimalDigit_underscore : isDecimalDigit '_' = false := by decide

/-- The digits of no script are white space: each script has them in one of the gaps between the blanks. -/
theorem not_isWhiteSpace_of_digit {c : Char} (digit : isDecimalDigit c = true) :
    isWhiteSpace c = false := by
  have apart : ∀ start ∈ decimalZeros, (32 < start ∧ start + 9 < 0x85) ∨ (0xA0 < start ∧ start + 9 < 0x1680) ∨
      (0x1680 < start ∧ start + 9 < 0x2000) ∨ 0x3000 < start := by decide
  obtain ⟨value, atC⟩ := Option.isSome_iff_exists.mp digit
  obtain ⟨start, found, rfl⟩ := Option.map_eq_some_iff.mp atC
  have bounds := List.find?_some found
  simp only [Bool.and_eq_true, decide_eq_true_eq] at bounds
  have gap := apart start (List.mem_of_find?_eq_some found)
  refine Bool.eq_false_iff.mpr fun white => ?_
  simp only [isWhiteSpace, isBlank, Bool.and_eq_true, Bool.or_eq_true, decide_eq_true_eq, beq_iff_eq] at white
  omega

theorem DigitsText.head_digit {text digits : List Char} (written : DigitsText text digits) :
    ∃ c rest, text = c :: rest ∧ isDecimalDigit c = true := by
  cases written with
  | last digit => exact ⟨_, _, rfl, digit⟩
  | next digit _ => exact ⟨_, _, rfl, digit⟩
  | joined digit _ => exact ⟨_, _, rfl, digit⟩

theorem digitsOf?_eq_some {text digits : List Char} :
    digitsOf? isDecimalDigit text = some digits ↔ DigitsText text digits := by
  constructor
  · intro read
    fun_induction digitsOf? isDecimalDigit text generalizing digits with
    | case1 => exact nomatch read
    | case2 c digit =>
      cases read
      exact .last digit
    | case3 => exact nomatch read
    | case4 c rest digit ih =>
      obtain ⟨others, rest_read, rfl⟩ := Option.map_eq_some_iff.mp read
      exact .joined digit (ih rest_read)
    | case5 => exact nomatch read
    | case6 c rest _ _ digit ih =>
      obtain ⟨others, rest_read, rfl⟩ := Option.map_eq_some_iff.mp read
      exact .next digit (ih rest_read)
    | case7 => exact nomatch read
  · intro written
    induction written with
    | last digit => simp [digitsOf?, digit]
    | joined digit _ ih => simp [digitsOf?, digit, ih]
    | @next c text digits digit inner ih =>
      obtain ⟨d, rest, rfl, follows⟩ := inner.head_digit
      have other : d ≠ '_' := by
        rintro rfl
        exact nomatch isDecimalDigit_underscore.symm.trans follows
      rw [digitsOf?, if_pos digit, ih, Option.map_some]
      · simp
      · intro _ same
        exact other (List.cons.inj same).1

theorem dropWhile_framed {belongs : Char → Bool} {before core : List Char}
    (front : ∀ c ∈ before, belongs c = true) (first : ∀ c ∈ core.head?, belongs c = false) :
    (before ++ core).dropWhile belongs = core := by
  rw [List.dropWhile_append_of_pos front]
  cases core with
  | nil => rfl
  | cons c rest => exact List.dropWhile_cons_of_neg (by simp [first c rfl])

theorem stripBy_framed {belongs : Char → Bool} {before core behind : List Char}
    (front : ∀ c ∈ before, belongs c = true) (back : ∀ c ∈ behind, belongs c = true)
    (visible : core ≠ []) (first : ∀ c ∈ core.head?, belongs c = false)
    (last : ∀ c ∈ core.getLast?, belongs c = false) :
    stripBy belongs (before ++ core ++ behind) = core := by
  have head : ∀ c ∈ (core ++ behind).head?, belongs c = false := by
    rwa [List.head?_append_of_ne_nil _ visible]
  have tail : ∀ c ∈ core.reverse.head?, belongs c = false := by rwa [List.head?_reverse]
  have back' : ∀ c ∈ behind.reverse, belongs c = true := fun c among => back c (List.mem_reverse.mp among)
  rw [stripBy, List.append_assoc, dropWhile_framed front head, List.reverse_append,
    dropWhile_framed back' tail, List.reverse_reverse]

theorem stripBy_frame (belongs : Char → Bool) (text : List Char) :
    ∃ before behind, text = before ++ stripBy belongs text ++ behind ∧
      (∀ c ∈ before, belongs c = true) ∧ ∀ c ∈ behind, belongs c = true := by
  refine ⟨text.takeWhile belongs, ((text.dropWhile belongs).reverse.takeWhile belongs).reverse, ?_,
    fun _ => List.mem_takeWhile_imp, fun _ among => List.mem_takeWhile_imp (List.mem_reverse.mp among)⟩
  have front := List.takeWhile_append_dropWhile (p := belongs) (l := text)
  have back := List.takeWhile_append_dropWhile (p := belongs) (l := (text.dropWhile belongs).reverse)
  rw [stripBy, List.append_assoc, ← List.reverse_append, back, List.reverse_reverse, front]

theorem DigitsText.last_digit {text digits : List Char} (written : DigitsText text digits) :
    ∀ c ∈ text.getLast?, isDecimalDigit c = true := by
  induction written with
  | last digit =>
    intro c same
    cases same
    exact digit
  | next _ inner ih =>
    obtain ⟨d, rest, rfl, _⟩ := inner.head_digit
    simpa using ih
  | joined _ inner ih =>
    obtain ⟨d, rest, rfl, _⟩ := inner.head_digit
    simpa using ih

theorem signed_sound (text : List Char) :
    ∃ sign, SignText (signed text).1 sign ∧ text = sign ++ (signed text).2 := by
  unfold signed
  split
  · exact ⟨_, .minus, rfl⟩
  · exact ⟨_, .plus, rfl⟩
  · exact ⟨_, .none, rfl⟩

theorem signed_append {negative : Bool} {sign text digits : List Char} (written : SignText negative sign)
    (number : DigitsText text digits) : signed (sign ++ text) = (negative, text) := by
  cases written with
  | minus => rfl
  | plus => rfl
  | none =>
    -- A digit is no sign.
    obtain ⟨c, rest, rfl, digit⟩ := number.head_digit
    have other : c ≠ '-' ∧ c ≠ '+' := by
      constructor <;> rintro rfl <;> revert digit <;> decide
    simp [signed, other]

theorem numeral_sound {text : List Char} {n : Int} (read : numeral text = .ok n) : IntegerText text n := by
  obtain ⟨before, behind, framed, front, back⟩ := stripBy_frame isWhiteSpace text
  obtain ⟨sign, signText, core⟩ := signed_sound (stripBy isWhiteSpace text)
  rw [core] at framed
  unfold numeral at read
  cases parts : signed (stripBy isWhiteSpace text) with
  | mk negative unsigned =>
    rw [parts] at read framed signText
    dsimp only at read framed signText
    split at read
    · exact nomatch read
    · rename_i digits digits_read
      split at read
      · exact nomatch read
      · rename_i few
        cases read
        rw [framed]
        exact .written front signText (digitsOf?_eq_some.mp digits_read) back (Nat.le_of_not_lt few)

/-- A signed text of digits begins and ends with what is no white space. -/
theorem DigitsText.visible {negative : Bool} {sign text digits : List Char} (written : DigitsText text digits)
    (signText : SignText negative sign) :
    (∀ c ∈ (sign ++ text).head?, isWhiteSpace c = false) ∧
      ∀ c ∈ (sign ++ text).getLast?, isWhiteSpace c = false := by
  have ⟨c, rest, begins, digit⟩ := written.head_digit
  constructor
  · rw [begins]
    cases signText with
    | none => simpa using not_isWhiteSpace_of_digit digit
    | plus => simpa using (show isWhiteSpace '+' = false by decide)
    | minus => simpa using (show isWhiteSpace '-' = false by decide)
  · intro c last
    rw [List.getLast?_append_of_ne_nil _ (by simp [begins])] at last
    exact not_isWhiteSpace_of_digit (written.last_digit c last)

theorem numeral_complete {text : List Char} {n : Int} (written : IntegerText text n) :
    numeral text = .ok n := by
  cases written with
  | @written before sign text digits behind negative front signText written back few =>
    obtain ⟨first, last⟩ := written.visible signText
    have some : sign ++ text ≠ [] := by
      obtain ⟨c, rest, rfl, _⟩ := written.head_digit
      simp
    simp only [numeral, stripBy_framed front back some first last, signed_append signText written,
      digitsOf?_eq_some.mpr written, Nat.not_lt.mpr few, if_false]

/-- The reader of integers takes the texts of the grammar, and gives each its value. -/
theorem numeral_eq_ok {text : List Char} {n : Int} : numeral text = .ok n ↔ IntegerText text n :=
  ⟨numeral_sound, numeral_complete⟩

end PayloadCheck.Number
