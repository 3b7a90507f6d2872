import PayloadCheck.Proofs.FirstFailure
import PayloadCheck.Proofs.Number.Overflow
import PayloadCheck.Yaml.Numeral

namespace PayloadCheck.Yaml

open Json Number

/-- A text without underscores and in small letters, less its sign. -/
def unsignedText (text : List Char) : List Char := (signed (Text.lower (text.filter (· != '_')))).2

/-- The same less the blanks around it and a second sign. -/
def bareText (text : List Char) : List Char :=
  (signed (Text.stripBy Text.isWhiteSpace (unsignedText text))).2

/-- Digits, among which may be a point, and an exponent: a number of digits times a power of ten. -/
inductive DecimalText : List Char → Nat → Int → Prop
  | whole {digits rest : List Char} {exponent : Int} :
      digits ≠ [] → (∀ c ∈ digits, Text.isDecimalDigit c = true) → exponent? rest = some exponent →
      DecimalText (digits ++ rest) (Text.digitsValue digits) exponent
  | point {digits fraction rest : List Char} {exponent : Int} :
      digits ++ fraction ≠ [] → (∀ c ∈ digits, Text.isDecimalDigit c = true) →
      (∀ c ∈ fraction, Text.isDecimalDigit c = true) → exponent? rest = some exponent →
      DecimalText (digits ++ '.' :: (fraction ++ rest)) (Text.digitsValue (digits ++ fraction))
        (exponent - fraction.length)

/-- The names of infinity and of what is no number. -/
def names : List (List Char) := [".inf".toList, ".nan".toList]

/-- Such names without a point, which only a tag makes numbers of. -/
def bareNames : List (List Char) := ["inf".toList, "infinity".toList, "nan".toList]

/-- A text names no finite number, or writes a decimal beyond the range of doubles. -/
inductive WritesNonfinite (text : List Char) : Prop
  | named : unsignedText text ∈ names → WritesNonfinite text
  | bareNamed : bareText text ∈ bareNames → WritesNonfinite text
  | decimal {digits : Nat} {exponent : Int} :
      DecimalText (bareText text) digits exponent →
      Binary64.overflowBound ≤ (digits : ℚ) * 10 ^ exponent → WritesNonfinite text

/-- An exponent begins with its mark. -/
theorem exponent?_head {rest : List Char} {exponent : Int} (read : exponent? rest = some exponent) :
    ∀ c ∈ rest.head?, c = 'e' ∨ c = 'E' := by
  cases rest with
  | nil => exact nofun
  | cons mark rest =>
    rintro c ⟨⟩
    unfold exponent? at read
    dsimp only at read
    split at read
    · rename_i marked
      simp only [Bool.and_eq_true, Bool.or_eq_true, beq_iff_eq] at marked
      exact marked.1
    · exact nomatch read

/-- Digits are taken whole where no digit follows. -/
theorem takeDigits {digits rest : List Char} (each : ∀ c ∈ digits, Text.isDecimalDigit c = true)
    (stops : ∀ c ∈ rest.head?, Text.isDecimalDigit c = false) :
    (digits ++ rest).takeWhile Text.isDecimalDigit = digits ∧
      (digits ++ rest).dropWhile Text.isDecimalDigit = rest := by
  rw [List.takeWhile_append_of_pos each, List.dropWhile_append_of_pos each]
  cases rest with
  | nil => simp
  | cons c rest => simp [stops c rfl]

theorem mark_no_digit {c : Char} (mark : c = 'e' ∨ c = 'E') : Text.isDecimalDigit c = false := by
  rcases mark with rfl | rfl <;> decide

theorem DecimalText.read {text : List Char} {digits : Nat} {exponent : Int}
    (written : DecimalText text digits exponent) :
    decimal? text = some (Binary64.ofDecimal false digits exponent) := by
  cases written with
  | @whole ds rest _ some each read =>
    have marks := exponent?_head read
    obtain ⟨taken, left⟩ := takeDigits each fun c first => mark_no_digit (marks c first)
    unfold decimal?
    dsimp only
    rw [taken, left]
    split
    · exact absurd (marks '.' rfl) (by decide)
    · simp [some, read]
  | @point ds fraction rest e some each others read =>
    have marks := exponent?_head read
    have pointed : ∀ c ∈ ('.' :: (fraction ++ rest)).head?, Text.isDecimalDigit c = false := by
      rintro c ⟨⟩
      decide
    obtain ⟨taken, left⟩ := takeDigits each pointed
    obtain ⟨takenThen, leftThen⟩ := takeDigits others fun c first => mark_no_digit (marks c first)
    unfold decimal?
    dsimp only
    rw [taken, left]
    simp [some, read, takenThen, leftThen]

theorem taken_digits (text : List Char) :
    ∀ c ∈ text.takeWhile Text.isDecimalDigit, Text.isDecimalDigit c = true :=
  List.all_eq_true.mp List.all_takeWhile

theorem decimal?_written {text : List Char} {x : Binary64} (read : decimal? text = some x) :
    ∃ digits exponent, DecimalText text digits exponent ∧ Binary64.ofDecimal false digits exponent = x := by
  have parts := List.takeWhile_append_dropWhile (p := Text.isDecimalDigit) (l := text)
  have each := taken_digits text
  unfold decimal? at read
  dsimp only at read
  generalize text.takeWhile Text.isDecimalDigit = ds at parts each read
  generalize text.dropWhile Text.isDecimalDigit = rest at parts read
  subst parts
  split at read
  · rename_i behind
    split at read
    · exact nomatch read
    rename_i some
    obtain ⟨exponent, taken, rfl⟩ := Option.map_eq_some_iff.mp read
    have written := DecimalText.point (by simpa using some) each (taken_digits behind) taken
    rw [List.takeWhile_append_dropWhile] at written
    exact ⟨_, _, written, rfl⟩
  · split at read
    · exact nomatch read
    rename_i some
    obtain ⟨exponent, taken, rfl⟩ := Option.map_eq_some_iff.mp read
    refine ⟨_, _, .whole (by simpa using some) each taken, ?_⟩
    rw [List.append_nil, List.length_nil, Nat.cast_zero, sub_zero]

/-- The number that a decimal text stands for is finite where the decimal lies below the bound. -/
theorem decimal?_isFinite_iff {text : List Char} {x : Binary64} (read : decimal? text = some x) :
    isFiniteNumber x = true ↔ ∀ digits exponent, DecimalText text digits exponent →
      (digits : ℚ) * 10 ^ exponent < Binary64.overflowBound := by
  constructor
  · intro fits digits exponent written
    have same := written.read.symm.trans read
    rwa [← Binary64.isFiniteNumber_ofDecimal false, Option.some.inj same]
  · intro each
    obtain ⟨digits, exponent, written, rfl⟩ := decimal?_written read
    exact (Binary64.isFiniteNumber_ofDecimal _ _ _).mpr (each digits exponent written)

theorem isFiniteNumber_negate (x : Binary64) : isFiniteNumber x.negate = isFiniteNumber x := by
  cases x <;> rfl

theorem isFiniteNumber_sign (negative : Bool) (x : Binary64) :
    isFiniteNumber (if negative then x.negate else x) = isFiniteNumber x := by
  cases negative
  · rfl
  · exact isFiniteNumber_negate x

theorem unsignedFloat_isFinite_iff {text : List Char} {x : Binary64} (read : unsignedFloat text = .ok x) :
    isFiniteNumber x = true ↔
      (signed (Text.stripBy Text.isWhiteSpace text)).2 ∉ bareNames ∧
        ∀ digits exponent, DecimalText (signed (Text.stripBy Text.isWhiteSpace text)).2 digits exponent →
          (digits : ℚ) * 10 ^ exponent < Binary64.overflowBound := by
  unfold unsignedFloat at read
  generalize signed (Text.stripBy Text.isWhiteSpace text) = parts at *
  obtain ⟨negative, body⟩ := parts
  dsimp only at read ⊢
  split at read
  · rename_i y found
    cases read
    rw [isFiniteNumber_sign]
    simp only [List.any_cons, List.any_nil, Bool.or_false, Bool.or_eq_true, decide_eq_true_eq] at found
    split at found
    · rename_i named
      cases found
      refine iff_of_false Bool.false_ne_true fun ⟨unnamed, _⟩ => unnamed ?_
      rcases named with rfl | rfl <;> simp [bareNames]
    split at found
    · rename_i named
      cases found
      refine iff_of_false Bool.false_ne_true fun ⟨unnamed, _⟩ => unnamed ?_
      simp [bareNames, named]
    · rename_i notInfinite notNan
      have unnamed : body ∉ bareNames := by
        simp only [bareNames, List.mem_cons, List.not_mem_nil, or_false]
        rintro (rfl | rfl | rfl)
        · exact notInfinite (Or.inl rfl)
        · exact notInfinite (Or.inr rfl)
        · exact notNan rfl
      rw [decimal?_isFinite_iff found]
      exact (and_iff_right unnamed).symm
  · cases read

/-- The number that a text writes is finite unless the text names another, or writes a decimal beyond the
range. Of a former version this holds of numbers that are not in groups of sixty. -/
theorem float_isFinite_iff {v : Version} {text : List Char} {x : Binary64}
    (single : v = .current ∨ ':' ∉ unsignedText text) (read : float v text = .ok x) :
    isFiniteNumber x = true ↔ ¬ WritesNonfinite text := by
  have unsigned : unsignedText text = (signed (Text.lower (text.filter (· != '_')))).2 := rfl
  unfold float at read
  generalize signed (Text.lower (text.filter (· != '_'))) = parts at unsigned read
  obtain ⟨negative, body⟩ := parts
  dsimp only at unsigned read
  obtain ⟨y, found, rfl⟩ := map_eq_ok read
  rw [isFiniteNumber_sign]
  have isNamed (name : unsignedText text ∈ names) (other : isFiniteNumber y = false) :
      isFiniteNumber y = true ↔ ¬ WritesNonfinite text :=
    iff_of_false (by simp [other]) (not_not.mpr (.named name))
  split at found
  · rename_i named
    cases found
    exact isNamed (by simp [unsigned, names, named]) rfl
  split at found
  · rename_i named
    cases found
    exact isNamed (by simp [unsigned, names, named]) rfl
  rename_i notInfinite notNan
  have ungrouped : ¬ ((v ≠ .current && body.contains ':') = true) := by
    rw [unsigned] at single
    rcases single with rfl | without <;> simp_all
  rw [if_neg ungrouped, ← unsigned] at found
  have unnamed : unsignedText text ∉ names := by
    simp only [unsigned, names, List.mem_cons, List.not_mem_nil, or_false, not_or]
    exact ⟨notInfinite, notNan⟩
  rw [unsignedFloat_isFinite_iff found, ← bareText]
  constructor
  · rintro ⟨bare, each⟩ (named | bareNamed | ⟨written, beyond⟩)
    · exact unnamed named
    · exact bare bareNamed
    · exact absurd (each _ _ written) (not_lt.mpr beyond)
  · exact fun finite => ⟨fun named => finite (.bareNamed named),
      fun _ _ written => not_le.mp fun beyond => finite (.decimal written beyond)⟩

end PayloadCheck.Yaml
