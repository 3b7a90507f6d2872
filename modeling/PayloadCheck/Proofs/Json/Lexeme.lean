import Mathlib.Data.List.Induction
import Mathlib.Tactic.IntervalCases
import PayloadCheck.Proofs.Json.Grammar

namespace PayloadCheck.Json

open Number

theorem isSpace_iff {c : Char} : isSpace c = true ↔ c = ' ' ∨ c = '\t' ∨ c = '\n' ∨ c = '\r' := by
  simp [isSpace, or_assoc]

theorem space_nil : Space [] := List.forall_mem_nil _

theorem Space.append {w v : List Char} (left : Space w) (right : Space v) : Space (w ++ v) :=
  List.forall_mem_append.mpr ⟨left, right⟩

theorem skipSpace_append {w : List Char} (space : Space w) (rest : List Char) :
    skipSpace (w ++ rest) = skipSpace rest :=
  List.dropWhile_append_of_pos fun c among => isSpace_iff.mpr (space c among)

/-- The white space at the front of a text comes off as a whole. -/
theorem skipSpace_split (text : List Char) : ∃ w, Space w ∧ text = w ++ skipSpace text := by
  refine ⟨text.takeWhile isSpace, fun c among => ?_, List.takeWhile_append_dropWhile.symm⟩
  exact isSpace_iff.mp (List.all_eq_true.mp List.all_takeWhile c among)

theorem skipSpace_of_head {text : List Char} (visible : ∀ c ∈ text.head?, isSpace c = false) :
    skipSpace text = text := by
  cases text with
  | nil => rfl
  | cons c rest =>
    have first : isSpace c = false := visible c rfl
    simp [skipSpace, first]

theorem skipSpace_length_le (text : List Char) : (skipSpace text).length ≤ text.length :=
  (List.dropWhile_suffix isSpace).length_le

theorem eq_ofNat_of_between {a b c : Char} (low : a ≤ c) (high : c ≤ b) :
    ∃ k, a.toNat ≤ k ∧ k ≤ b.toNat ∧ c = Char.ofNat k :=
  ⟨c.toNat, low, high, (Char.ofNat_toNat c).symm⟩

theorem HexDigit.below {c : Char} {n : Nat} (digit : HexDigit c n) : n < 16 := by
  rcases digit with found | found
  · exact (List.getElem?_eq_some_iff.mp found).1
  · exact (List.getElem?_eq_some_iff.mp found).1

theorem hexValue?_eq_some {c : Char} {n : Nat} : Text.hexValue? c = some n ↔ HexDigit c n := by
  constructor
  · intro value
    unfold Text.hexValue? at value
    simp only [Bool.and_eq_true, decide_eq_true_eq] at value
    split at value
    · rename_i digit
      obtain ⟨k, low, high, rfl⟩ := eq_ofNat_of_between digit.1 digit.2
      cases value
      change 48 ≤ k at low
      change k ≤ 57 at high
      interval_cases k <;> exact Or.inl rfl
    · split at value
      · rename_i small
        obtain ⟨k, low, high, rfl⟩ := eq_ofNat_of_between small.1 small.2
        cases value
        change 97 ≤ k at low
        change k ≤ 102 at high
        interval_cases k <;> exact Or.inl rfl
      · split at value
        · rename_i capital
          obtain ⟨k, low, high, rfl⟩ := eq_ofNat_of_between capital.1 capital.2
          cases value
          change 65 ≤ k at low
          change k ≤ 70 at high
          interval_cases k <;> exact Or.inr rfl
        · exact nomatch value
  · intro digit
    have below := digit.below
    unfold HexDigit at digit
    interval_cases n <;> (rcases digit with found | found <;> cases Option.some.inj found <;> rfl)

theorem hexQuad?_eq_some {a b c d : Char} {code : Nat} :
    hexQuad? a b c d = some code ↔
      ∃ k l m n, HexDigit a k ∧ HexDigit b l ∧ HexDigit c m ∧ HexDigit d n ∧
        code = k * 16 ^ 3 + l * 16 ^ 2 + m * 16 + n := by
  have horner : ∀ k l m n : Nat,
      ((k * 16 + l) * 16 + m) * 16 + n = k * 16 ^ 3 + l * 16 ^ 2 + m * 16 + n := by
    intro k l m n
    omega
  simp only [hexQuad?, Option.bind_eq_bind, Option.bind_eq_some_iff, hexValue?_eq_some,
    Option.pure_def, Option.some.injEq, horner]
  constructor
  · rintro ⟨k, first, l, second, m, third, n, fourth, rfl⟩
    exact ⟨k, l, m, n, first, second, third, fourth, rfl⟩
  · rintro ⟨k, l, m, n, first, second, third, fourth, rfl⟩
    exact ⟨k, first, l, second, m, third, n, fourth, rfl⟩

theorem shortEscape?_eq_some {letter c : Char} :
    shortEscape? letter = some c ↔ (letter, c) ∈ shortEscapes := by
  unfold shortEscape? shortEscapes
  split <;> simp_all [eq_comm]

theorem pieces_sound {opening text rest : List Char} {ps : List Piece}
    (read : pieces opening text = .ok (ps, rest)) :
    ∃ body, text = body ++ '"' :: rest ∧ PiecesText ps body := by
  fun_induction pieces opening text generalizing ps rest with
  | case2 rest =>
    cases read
    exact ⟨[], rfl, .nil⟩
  | case4 a b c d e behind code quad found after inner ih =>
    cases read
    obtain ⟨body, spelled, more⟩ := ih inner
    obtain ⟨k, l, m, n, first, second, third, fourth, rfl⟩ := hexQuad?_eq_some.mp quad
    exact ⟨'\\' :: 'u' :: a :: b :: c :: d :: body, by simp [spelled],
      .cons (.numeric first second third fourth) more⟩
  | case8 letter behind _ c short found after inner ih =>
    cases read
    obtain ⟨body, rfl, more⟩ := ih inner
    exact ⟨'\\' :: letter :: body, rfl, .cons (.short (shortEscape?_eq_some.mp short)) more⟩
  | case12 c behind notEnd notLast notUnit notShort visible found after inner ih =>
    cases read
    obtain ⟨body, rfl, more⟩ := ih inner
    have unescaped : c ≠ '\\' := by
      intro same
      match body with
      | [] => exact notShort _ _ same rfl
      | letter :: others => exact notShort _ _ same rfl
    exact ⟨c :: body, rfl, .cons (.plain (by omega) notEnd unescaped) more⟩
  | _ => exact nomatch read

theorem pieces_complete {ps : List Piece} {body : List Char} (spelled : PiecesText ps body)
    (opening rest : List Char) : pieces opening (body ++ '"' :: rest) = .ok (ps, rest) := by
  induction spelled with
  | nil => rfl
  | @cons p ps text more first _ ih =>
    cases first with
    | @plain c visible unquoted unescaped =>
      change pieces opening (c :: (more ++ '"' :: rest)) = _
      rw [pieces, if_neg (by omega), ih]
      · exact unquoted
      · exact fun same => absurd same unescaped
      · exact fun _ same => absurd same unescaped
      · exact fun _ _ same => absurd same unescaped
    | @short letter c listed =>
      have notUnit : letter ≠ 'u' := by
        rintro rfl
        simp [shortEscapes] at listed
      change pieces opening ('\\' :: letter :: (more ++ '"' :: rest)) = _
      rw [pieces, shortEscape?_eq_some.mpr listed, ih]
      exact notUnit
    | @numeric a b c d k l m n first second third fourth =>
      -- The reader wants some text behind the four digits; the closing quote is there at least.
      have quad := hexQuad?_eq_some.mpr ⟨k, l, m, n, first, second, third, fourth, rfl⟩
      obtain ⟨e, behind, nonempty⟩ : ∃ e behind, more ++ '"' :: rest = e :: behind :=
        List.exists_cons_of_ne_nil (by simp)
      rw [nonempty] at ih
      change pieces opening ('\\' :: 'u' :: a :: b :: c :: d :: (more ++ '"' :: rest)) = _
      rw [nonempty]
      simp only [pieces, quad, ih]

theorem ofCode_surrogate {u : Nat} (surrogate : IsHigh u ∨ IsLow u) :
    Text.ofCode u = Text.unpaired u := by
  unfold IsHigh IsLow at surrogate
  have inside : (0xD800 ≤ u && u ≤ 0xDFFF) = true := by
    simp only [Bool.and_eq_true, decide_eq_true_eq]
    omega
  rw [Text.ofCode, if_pos inside]

theorem ofCode_of_not_surrogate {u : Nat} (noHigh : ¬ IsHigh u) (noLow : ¬ IsLow u) :
    Text.ofCode u = Char.ofNat u := by
  unfold IsHigh at noHigh
  unfold IsLow at noLow
  have outside : ¬ (0xD800 ≤ u && u ≤ 0xDFFF) = true := by
    simp only [Bool.and_eq_true, decide_eq_true_eq]
    omega
  rw [Text.ofCode, if_neg outside]

theorem Spells.single {u : Nat} {ps : List Piece} {s : List Char} (spelled : Spells ps s)
    (unpaired : IsHigh u → ∀ low, ps.head? = some (.unit low) → ¬ IsLow low) :
    Spells (.unit u :: ps) (Text.ofCode u :: s) := by
  by_cases surrogate : IsHigh u ∨ IsLow u
  · rw [ofCode_surrogate surrogate]
    exact .lone surrogate unpaired spelled
  · rw [not_or] at surrogate
    rw [ofCode_of_not_surrogate surrogate.1 surrogate.2]
    exact .unit surrogate.1 surrogate.2 spelled

theorem spells_spell (ps : List Piece) : Spells ps (spell ps) := by
  fun_induction spell ps with
  | case1 => exact .nil
  | case2 c rest ih => exact .char ih
  | case3 u => exact .single .nil fun _ _ none => nomatch none
  | case4 u c rest ih => exact .single (.char ih) fun _ _ other => nomatch other
  | case5 high low rest pair ih =>
    have both : IsHigh high ∧ IsLow low := by
      simp only [IsHigh, IsLow]
      simp only [Bool.and_eq_true, decide_eq_true_eq] at pair
      omega
    exact .pair both.1 both.2 ih
  | case6 high low rest pair ih =>
    refine .single ih fun isHigh next first isLow => pair ?_
    cases first
    unfold IsHigh at isHigh
    unfold IsLow at isLow
    simp only [Bool.and_eq_true, decide_eq_true_eq]
    omega

theorem spell_single {u : Nat} {ps : List Piece}
    (unpaired : IsHigh u → ∀ low, ps.head? = some (.unit low) → ¬ IsLow low) :
    spell (.unit u :: ps) = Text.ofCode u :: spell ps := by
  match ps with
  | [] => rfl
  | .char c :: rest => rfl
  | .unit low :: rest =>
    rw [spell, if_neg]
    intro pair
    simp only [Bool.and_eq_true, decide_eq_true_eq] at pair
    have high : IsHigh u := by
      unfold IsHigh
      omega
    have notLow : ¬ IsLow low := unpaired high low rfl
    unfold IsLow at notLow
    omega

theorem Spells.eq_spell {ps : List Piece} {s : List Char} (spelled : Spells ps s) :
    s = spell ps := by
  induction spelled with
  | nil => rfl
  | char _ ih => rw [spell, ih]
  | unit noHigh noLow _ ih =>
    rw [spell_single fun high => absurd high noHigh, ofCode_of_not_surrogate noHigh noLow, ih]
  | @pair high low _ _ isHigh isLow _ ih =>
    unfold IsHigh at isHigh
    unfold IsLow at isLow
    have both : (0xD800 ≤ high && high ≤ 0xDBFF && 0xDC00 ≤ low && low ≤ 0xDFFF) = true := by
      simp only [Bool.and_eq_true, decide_eq_true_eq]
      omega
    rw [spell, if_pos both, ih]
  | lone surrogate unpaired _ ih =>
    rw [spell_single unpaired, ofCode_surrogate surrogate, ih]

/-- A string is read as the text that it spells. -/
theorem stringBody_sound {text rest : List Char} {s : String}
    (read : stringBody text = .ok (s, rest)) :
    ∃ body ps, text = body ++ '"' :: rest ∧ PiecesText ps body ∧ Spells ps s.toList := by
  unfold stringBody at read
  split at read
  · rename_i ps behind inner
    cases read
    obtain ⟨body, split, spelled⟩ := pieces_sound inner
    exact ⟨body, ps, split, spelled, by simpa using spells_spell ps⟩
  · exact nomatch read

theorem stringBody_complete {ps : List Piece} {body : List Char} {s : String}
    (spelled : PiecesText ps body) (means : Spells ps s.toList) (rest : List Char) :
    stringBody (body ++ '"' :: rest) = .ok (s, rest) := by
  have same : s = String.ofList (spell ps) := by rw [← means.eq_spell, String.ofList_toList]
  rw [stringBody, pieces_complete spelled, same]

theorem isAsciiDigit_iff {c : Char} : Text.isAsciiDigit c = true ↔ '0' ≤ c ∧ c ≤ '9' := by
  simp [Text.isAsciiDigit]

/-- A number ends where its text does not go on: a value is followed by white space, by a comma, by a
closing bracket or brace, or by nothing. -/
def Delimited (rest : List Char) : Prop :=
  ∀ c ∈ rest.head?, isSpace c = true ∨ c = ',' ∨ c = ']' ∨ c = '\x7d'

/-- The first character, if there is one, is none of some and no digit. -/
def Stops (others : List Char) (rest : List Char) : Prop :=
  ∀ c ∈ rest.head?, Text.isAsciiDigit c = false ∧ c ∉ others

theorem Delimited.stops {rest : List Char} (delimited : Delimited rest) :
    Stops ['.', 'e', 'E'] rest := by
  intro c first
  rcases delimited c first with space | rfl | rfl | rfl
  · rcases isSpace_iff.mp space with rfl | rfl | rfl | rfl <;> decide
  all_goals decide

theorem Stops.mono {some all rest : List Char} (stops : Stops all rest) (sub : some ⊆ all) :
    Stops some rest :=
  fun c first => ⟨(stops c first).1, fun among => (stops c first).2 (sub among)⟩

/-- A run of digits comes off as a whole. -/
theorem digits_split {text ds : List Char} (taken : text.takeWhile Text.isAsciiDigit = ds)
    (nonempty : ds ≠ []) : Digits ds ∧ text = ds ++ text.dropWhile Text.isAsciiDigit := by
  refine ⟨⟨nonempty, fun c among => ?_⟩, ?_⟩
  · rw [← taken] at among
    exact isAsciiDigit_iff.mp (List.all_eq_true.mp List.all_takeWhile c among)
  · rw [← taken, List.takeWhile_append_dropWhile]

theorem Digits.exact {ds rest others : List Char} (digits : Digits ds) (stops : Stops others rest) :
    (ds ++ rest).takeWhile Text.isAsciiDigit = ds ∧
      (ds ++ rest).dropWhile Text.isAsciiDigit = rest := by
  have all : ∀ c ∈ ds, Text.isAsciiDigit c = true :=
    fun c among => isAsciiDigit_iff.mpr (digits.2 c among)
  rw [List.takeWhile_append_of_pos all, List.dropWhile_append_of_pos all]
  cases rest with
  | nil => simp
  | cons c behind => simp [(stops c rfl).1]

theorem wholePart?_sound {text ds rest : List Char} (read : wholePart? text = some (ds, rest)) :
    text = ds ++ rest ∧ WholeText ds := by
  unfold wholePart? at read
  split at read
  · cases read
    exact ⟨rfl, .inl rfl⟩
  · rename_i notZero
    split at read
    · exact nomatch read
    · rename_i taken nonempty
      cases read
      obtain ⟨digits, split⟩ := digits_split rfl nonempty
      refine ⟨split, .inr ⟨digits, fun zero => ?_⟩⟩
      obtain ⟨more, starts⟩ := List.head?_eq_some_iff.mp zero
      rw [starts] at split
      exact notZero _ split

theorem wholePart?_complete {ds rest others : List Char} (whole : WholeText ds)
    (stops : Stops others rest) : wholePart? (ds ++ rest) = some (ds, rest) := by
  rcases whole with rfl | ⟨digits, notZero⟩
  · rfl
  · obtain ⟨taken, dropped⟩ := digits.exact stops
    obtain ⟨c, more, rfl⟩ := List.exists_cons_of_ne_nil digits.1
    unfold wholePart?
    split
    · rename_i behind same
      cases same
      exact absurd rfl notZero
    · rw [taken, dropped]

theorem fractionPart_sound {text rest : List Char} {fraction : Option (List Char)}
    (read : fractionPart text = (fraction, rest)) :
    ∃ inner, text = inner ++ rest ∧ FractionText fraction inner := by
  unfold fractionPart at read
  split at read
  · rename_i behind
    split at read
    · cases read
      exact ⟨[], rfl, .absent⟩
    · rename_i nonempty
      cases read
      obtain ⟨digits, split⟩ := digits_split rfl nonempty
      exact ⟨'.' :: behind.takeWhile Text.isAsciiDigit, congrArg ('.' :: ·) split, .present digits⟩
  · cases read
    exact ⟨[], rfl, .absent⟩

theorem fractionPart_complete {inner rest : List Char} {fraction : Option (List Char)}
    (written : FractionText fraction inner) (stops : Stops ['.'] rest) :
    fractionPart (inner ++ rest) = (fraction, rest) := by
  cases written with
  | absent =>
    change fractionPart rest = _
    unfold fractionPart
    split
    · exact absurd List.mem_cons_self (stops '.' rfl).2
    · rfl
  | @present ds digits =>
    obtain ⟨taken, dropped⟩ := digits.exact stops
    change fractionPart ('.' :: (ds ++ rest)) = _
    rw [fractionPart, taken, dropped]
    split
    · exact absurd rfl digits.1
    · rfl

theorem isMark_iff {mark : Char} :
    (mark == 'e' || mark == 'E') = true ↔ mark = 'e' ∨ mark = 'E' := by
  simp

theorem exponentPart_sound {text rest : List Char} {exponent : Option (Bool × List Char)}
    (read : exponentPart text = (exponent, rest)) :
    ∃ inner, text = inner ++ rest ∧ ExponentText exponent inner := by
  unfold exponentPart at read
  split at read
  · rename_i mark behind
    split at read
    · rename_i isMark
      have capital := isMark_iff.mp isMark
      split at read
      rename_i negative unsigned sign
      split at read
      · cases read
        exact ⟨[], rfl, .absent⟩
      · rename_i ds nonempty
        cases read
        obtain ⟨digits, split⟩ := digits_split rfl nonempty
        rw [split] at sign
        generalize unsigned.takeWhile Text.isAsciiDigit = ds at *
        split at sign
        · cases sign
          exact ⟨mark :: '-' :: ds, rfl, .minus capital digits⟩
        · cases sign
          exact ⟨mark :: '+' :: ds, rfl, .plus capital digits⟩
        · cases sign
          exact ⟨mark :: ds, rfl, .bare capital digits⟩
    · cases read
      exact ⟨[], rfl, .absent⟩
  · cases read
    exact ⟨[], rfl, .absent⟩

theorem exponentPart_complete {inner rest : List Char} {exponent : Option (Bool × List Char)}
    (written : ExponentText exponent inner) (stops : Stops ['e', 'E'] rest) :
    exponentPart (inner ++ rest) = (exponent, rest) := by
  cases written with
  | absent =>
    change exponentPart rest = _
    unfold exponentPart
    split
    · rename_i mark behind
      have other : ¬ (mark == 'e' || mark == 'E') = true := by simpa using (stops mark rfl).2
      rw [if_neg other]
    · rfl
  | @bare mark ds capital digits =>
    obtain ⟨taken, dropped⟩ := digits.exact stops
    obtain ⟨c, more, rfl⟩ := List.exists_cons_of_ne_nil digits.1
    have digit := digits.2 c List.mem_cons_self
    change exponentPart (mark :: (c :: more ++ rest)) = _
    rw [exponentPart, if_pos (isMark_iff.mpr capital), taken, dropped]
    · intro behind minus
      cases minus
      exact absurd digit (by decide)
    · intro behind plus
      cases plus
      exact absurd digit (by decide)
  | @plus mark ds capital digits =>
    obtain ⟨taken, dropped⟩ := digits.exact stops
    change exponentPart (mark :: '+' :: (ds ++ rest)) = _
    unfold exponentPart
    simp only [isMark_iff.mpr capital, if_true, taken, dropped]
    split
    · exact absurd rfl digits.1
    · rfl
  | @minus mark ds capital digits =>
    obtain ⟨taken, dropped⟩ := digits.exact stops
    change exponentPart (mark :: '-' :: (ds ++ rest)) = _
    unfold exponentPart
    simp only [isMark_iff.mpr capital, if_true, taken, dropped]
    split
    · exact absurd rfl digits.1
    · rfl

theorem numeral?_sound {text rest : List Char} {n : Numeral}
    (read : numeral? text = some (n, rest)) :
    ∃ inner, text = inner ++ rest ∧ NumberText n inner := by
  unfold numeral? at read
  split at read
  rename_i negative unsigned sign
  have signed_text : text = signText negative ++ unsigned := by
    split at sign
    · cases sign
      rfl
    · cases sign
      rfl
  split at read
  · exact nomatch read
  · rename_i whole behind readWhole
    rcases readFraction : fractionPart behind with ⟨fraction, afterFraction⟩
    rcases readExponent : exponentPart afterFraction with ⟨exponent, afterExponent⟩
    obtain ⟨atWhole, isWhole⟩ := wholePart?_sound readWhole
    obtain ⟨fractionText, atFraction, isFraction⟩ := fractionPart_sound readFraction
    obtain ⟨exponentText, atExponent, isExponent⟩ := exponentPart_sound readExponent
    simp only [readFraction, readExponent] at read
    cases read
    refine ⟨_, ?_, .parts isWhole isFraction isExponent⟩
    simp only [signed_text, atWhole, atFraction, atExponent, List.append_assoc]

theorem fractionText_stops {fraction : Option (List Char)} {text rest : List Char}
    (written : FractionText fraction text) (stops : Stops ['.'] rest) : Stops [] (text ++ rest) := by
  cases written with
  | absent => exact stops.mono (List.nil_subset _)
  | present digits =>
    intro c first
    cases first
    decide

theorem exponentText_stops {exponent : Option (Bool × List Char)} {text rest : List Char}
    (written : ExponentText exponent text) (stops : Stops ['.', 'e', 'E'] rest) :
    Stops ['.'] (text ++ rest) := by
  have marked : ∀ {mark : Char} {more : List Char}, mark = 'e' ∨ mark = 'E' →
      Stops ['.'] (mark :: more ++ rest) := by
    intro mark more capital c first
    cases first
    rcases capital with rfl | rfl <;> decide
  cases written with
  | absent => exact stops.mono (by decide)
  | bare capital _ => exact marked capital
  | plus capital _ => exact marked capital
  | minus capital _ => exact marked capital

theorem WholeText.head {ds : List Char} (whole : WholeText ds) :
    ∃ c more, ds = c :: more ∧ '0' ≤ c ∧ c ≤ '9' := by
  rcases whole with rfl | ⟨digits, _⟩
  · exact ⟨'0', [], rfl, by decide⟩
  · obtain ⟨c, more, rfl⟩ := List.exists_cons_of_ne_nil digits.1
    exact ⟨c, more, rfl, digits.2 c List.mem_cons_self⟩

theorem numeral?_complete {inner rest : List Char} {n : Numeral} (written : NumberText n inner)
    (delimited : Delimited rest) : numeral? (inner ++ rest) = some (n, rest) := by
  cases written with
  | @parts negative whole fractionText exponentText fraction exponent isWhole isFraction isExponent =>
    have behindExponent := delimited.stops
    have behindFraction := exponentText_stops isExponent behindExponent
    have behindWhole := fractionText_stops isFraction behindFraction
    have readWhole := wholePart?_complete isWhole behindWhole
    have readFraction := fractionPart_complete isFraction behindFraction
    have readExponent := exponentPart_complete isExponent (behindExponent.mono (by decide))
    simp only [List.append_assoc]
    cases negative with
    | true =>
      change numeral? ('-' :: (whole ++ (fractionText ++ (exponentText ++ rest)))) = _
      simp only [numeral?, readWhole, readFraction, readExponent]
    | false =>
      change numeral? (whole ++ (fractionText ++ (exponentText ++ rest))) = _
      obtain ⟨c, more, rfl, digit⟩ := isWhole.head
      rw [numeral?]
      · simp only [readWhole, readFraction, readExponent]
      · intro behind minus
        cases minus
        exact absurd digit (by decide)

theorem digitValue?_of_ascii {c : Char} (digit : '0' ≤ c ∧ c ≤ '9') :
    Text.digitValue? c = some (c.toNat - '0'.toNat) := by
  have low : 48 ≤ c.toNat := digit.1
  have high : c.toNat ≤ 57 := digit.2
  have inside : (48 ≤ c.toNat && c.toNat < 48 + 10) = true := by
    simp only [Bool.and_eq_true, decide_eq_true_eq]
    omega
  have found : Text.decimalZeros.find? (fun start => start ≤ c.toNat && c.toNat < start + 10) =
      some 48 :=
    List.find?_cons_of_pos inside
  rw [Text.digitValue?, found]
  rfl

theorem digitsValue_eq_decimal {ds : List Char} (digits : ∀ c ∈ ds, '0' ≤ c ∧ c ≤ '9') :
    Text.digitsValue ds = decimal ds := by
  -- Both sides grow at the last digit: the one folds from the left, the other reverses.
  induction ds using List.reverseRecOn with
  | nil => rfl
  | append_singleton ds c ih =>
    have last := digitValue?_of_ascii (digits c (by simp))
    have others := ih fun d among => digits d (List.mem_append_left _ among)
    have value : Text.digitsValue (ds ++ [c]) =
        10 * Text.digitsValue ds + (Text.digitValue? c).getD 0 := by
      simp [Text.digitsValue]
    have number : decimal (ds ++ [c]) = (c.toNat - '0'.toNat) + 10 * decimal ds := by
      simp [decimal, Nat.ofDigits_cons]
    rw [value, number, last, others, Option.getD_some, Nat.add_comm]

theorem WholeText.digits {ds : List Char} (whole : WholeText ds) :
    ∀ c ∈ ds, '0' ≤ c ∧ c ≤ '9' := by
  rcases whole with rfl | ⟨digits, _⟩
  · intro c zero
    rw [List.mem_singleton.mp zero]
    decide
  · exact digits.2

theorem NumberText.significand {n : Numeral} {text : List Char} (written : NumberText n text) :
    ∀ c ∈ n.whole ++ n.fractionDigits, '0' ≤ c ∧ c ≤ '9' := by
  cases written with
  | parts whole fraction _ =>
    refine List.forall_mem_append.mpr ⟨whole.digits, ?_⟩
    cases fraction with
    | absent => exact List.forall_mem_nil _
    | present digits => exact digits.2

theorem NumberText.exponentDigits {n : Numeral} {text ds : List Char} {negative : Bool}
    (written : NumberText n text) (given : n.exponent = some (negative, ds)) :
    ∀ c ∈ ds, '0' ≤ c ∧ c ≤ '9' := by
  cases written with
  | parts _ _ exponent =>
    cases given
    cases exponent with
    | bare _ digits => exact digits.2
    | plus _ digits => exact digits.2
    | minus _ digits => exact digits.2

theorem NumberText.decimalNumber_eq {n : Numeral} {text : List Char} (written : NumberText n text) :
    decimalNumber n.negative n.whole n.fractionDigits n.exponent =
      Binary64.ofDecimal n.negative (decimal (n.whole ++ n.fractionDigits)) n.scale := by
  unfold decimalNumber Numeral.scale
  rw [digitsValue_eq_decimal written.significand]
  cases given : n.exponent with
  | none => rfl
  | some exponent =>
    obtain ⟨negative, ds⟩ := exponent
    simp only [signed, digitsValue_eq_decimal (written.exponentDigits given)]

theorem denotes_integer {n : Numeral} (integer : n.IsInteger) {v : Value} :
    Denotes (.number n) v ↔ v = .int (signed n.negative (decimal n.whole)) := by
  constructor
  · intro denotes
    cases denotes with
    | integer _ => rfl
    | rounded other => exact absurd integer other
  · rintro rfl
    exact .integer integer

theorem denotes_rounded {n : Numeral} (other : ¬ n.IsInteger) {v : Value} :
    Denotes (.number n) v ↔
      v = .float (Binary64.ofDecimal n.negative (decimal (n.whole ++ n.fractionDigits)) n.scale) := by
  constructor
  · intro denotes
    cases denotes with
    | integer integer => exact absurd integer other
    | rounded _ => rfl
  · rintro rfl
    exact .rounded other

theorem Numeral.value_of_integer {n : Numeral} (integer : n.IsInteger) :
    n.value =
      if digitLimit < n.whole.length then .error (.tooManyDigits n.whole.length)
      else .ok (.int (signed n.negative (Text.digitsValue n.whole))) := by
  rw [Numeral.value, integer.1, integer.2]
  rfl

theorem Numeral.value_of_not_integer {n : Numeral} (other : ¬ n.IsInteger) :
    n.value = .ok (.float (decimalNumber n.negative n.whole n.fractionDigits n.exponent)) := by
  unfold Numeral.value
  split
  · rename_i noFraction noExponent
    exact absurd ⟨noFraction, noExponent⟩ other
  · rfl

/-- A number has a value unless it is an integer with too many digits. -/
theorem NumberText.value_eq_ok {n : Numeral} {text : List Char} (written : NumberText n text)
    {v : Value} :
    n.value = .ok v ↔
      (n.IsInteger → n.whole.length ≤ digitLimit) ∧ Denotes (.number n) v := by
  by_cases integer : n.IsInteger
  · have whole : Text.digitsValue n.whole = decimal n.whole :=
      digitsValue_eq_decimal fun c among => written.significand c (List.mem_append_left _ among)
    rw [Numeral.value_of_integer integer, denotes_integer integer, whole]
    by_cases long : digitLimit < n.whole.length
    · simp [long, integer]
    · simp only [long, if_false, Except.ok.injEq, eq_comm (b := v)]
      exact ⟨fun same => ⟨fun _ => by omega, same⟩, And.right⟩
  · rw [Numeral.value_of_not_integer integer, denotes_rounded integer, written.decimalNumber_eq]
    simp only [Except.ok.injEq, eq_comm (b := v)]
    exact ⟨fun same => ⟨fun claimed => absurd claimed integer, same⟩, And.right⟩

end PayloadCheck.Json
