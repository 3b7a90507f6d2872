import PayloadCheck.Proofs.Json.Exactness
import PayloadCheck.Proofs.Json.PrintedNumber
import PayloadCheck.Proofs.Number.Numeral
import PayloadCheck.Proofs.Text.Position
import PayloadCheck.Store

namespace PayloadCheck.Json

open Number

theorem isDecimalDigit_of_ascii {c : Char} (digit : '0' ≤ c ∧ c ≤ '9') :
    Text.isDecimalDigit c = true := by
  rw [Text.isDecimalDigit, digitValue?_of_ascii digit]
  rfl

theorem Digits.digitsText {ds : List Char} (digits : Digits ds) : DigitsText ds ds := by
  obtain ⟨nonempty, each⟩ := digits
  induction ds with
  | nil => exact absurd rfl nonempty
  | cons c rest ih =>
    have first := isDecimalDigit_of_ascii (each c List.mem_cons_self)
    cases rest with
    | nil => exact .last first
    | cons d more => exact .next first (ih (by simp) fun c among => each c (List.mem_cons_of_mem _ among))

/-- Digits are read as the number that they write, unless there are too many. -/
theorem Digits.numeral_eq {ds : List Char} (digits : Digits ds) :
    numeral ds = if digitLimit < ds.length then .error (.tooLong ds.length) else .ok (decimal ds) := by
  have written := digits.digitsText
  have alone : Text.stripBy Text.isWhiteSpace ds = ds := by
    obtain ⟨first, last⟩ := written.visible .none
    have framed : Text.stripBy Text.isWhiteSpace ([] ++ ds ++ []) = ds :=
      stripBy_framed nofun nofun digits.1 first last
    rwa [List.nil_append, List.append_nil] at framed
  have unsigned : Number.signed ds = (false, ds) := signed_append .none written
  rw [numeral, alone, unsigned]
  simp only [digitsOf?_eq_some.mpr written, digitsValue_eq_decimal digits.2, Bool.false_eq_true, if_false]

theorem numeral_toDigits_iff (n : Nat) :
    numeral (Nat.toDigits 10 n) = .ok (n : Int) ↔ n < 10 ^ digitLimit := by
  have fits := Nat.length_toDigits_le_iff (b := 10) (n := n) (k := digitLimit) (by decide) (by decide)
  rw [(digits_toDigits n).numeral_eq, decimal_toDigits, ← fits]
  split
  · rename_i long
    exact iff_of_false nofun (Nat.not_le.mpr long)
  · rename_i short
    exact iff_of_true rfl (Nat.le_of_not_lt short)

/-- No such message has the word "position" in it, whatever follows. -/
theorem findAfter?_message (fault : Fault) (behind : List Char) :
    findAfter? positionLetters (fault.message.toList ++ behind) = findAfter? positionLetters behind := by
  cases fault <;> rfl

theorem charDigits?_message (fault : Fault) (behind : List Char) :
    charDigits? (fault.message.toList ++ behind) = charDigits? behind := by
  cases fault <;> rfl

theorem charDigits?_char {ds : List Char} (digits : Digits ds) :
    charDigits? ("(char ".toList ++ (ds ++ [')'])) = some ds := by
  have each : ∀ c ∈ ds, Text.isDecimalDigit c = true := fun c among =>
    isDecimalDigit_of_ascii (digits.2 c among)
  have taken : (ds ++ [')']).takeWhile Text.isDecimalDigit = ds := by
    rw [List.takeWhile_append_of_pos each]
    simp [show Text.isDecimalDigit ')' = false by decide]
  have left : (ds ++ [')']).dropWhile Text.isDecimalDigit = [')'] := by
    rw [List.dropWhile_append_of_pos each]
    simp [show Text.isDecimalDigit ')' = false by decide]
  obtain ⟨d, more, rfl⟩ := List.exists_cons_of_ne_nil digits.1
  change charDigits? ('(' :: 'c' :: 'h' :: 'a' :: 'r' :: ' ' :: (d :: more ++ [')'])) = _
  rw [charDigits?]
  simp only [taken, left]

/-- The line, column and offset as a message spells them. -/
theorem toList_whereText (text : List Char) (offset line column : Nat)
    (position : Text.position text offset = ⟨line, column⟩) :
    (whereText text offset).toList =
      "line ".toList ++ (Nat.toDigits 10 line ++ (" column ".toList ++ (Nat.toDigits 10 column ++
        (" ".toList ++ ("(char ".toList ++ (Nat.toDigits 10 offset ++ [')'])))))) := by
  have natural (n : Nat) : toString (n : Int) = toString n := rfl
  simp [whereText, position, natural, Nat.toString_eq_repr, Nat.repr_eq_ofList_toDigits]

/-- The line and the column of an offset in a text are natural numbers. -/
theorem position_natural {text : List Char} {offset : Nat} (inside : offset ≤ text.length) :
    ∃ line column : Nat, Text.position text offset = ⟨line, column⟩ := by
  have names := Text.position_names inside
  have line := names.line
  have column := names.column
  refine ⟨(Text.position text offset).line.toNat, (Text.position text offset).column.toNat, ?_⟩
  rw [Int.toNat_of_nonneg (by omega), Int.toNat_of_nonneg (by omega)]

theorem offsetInMessage_malformed (text rest : List Char) (fault : Fault) :
    offsetInMessage ((Refusal.malformed fault rest).message text).toList =
      (numeral (Nat.toDigits 10 (offsetOf text rest))).map some := by
  have inside : offsetOf text rest ≤ text.length := Nat.sub_le _ _
  obtain ⟨line, column, position⟩ := position_natural inside
  have spelled : ((Refusal.malformed fault rest).message text).toList = fault.message.toList ++
      (": ".toList ++ (whereText text (offsetOf text rest)).toList) := by
    change (fault.message ++ ": " ++ whereText text (offsetOf text rest)).toList = _
    rw [String.toList_append, String.toList_append, List.append_assoc]
  rw [toList_whereText _ _ _ _ position] at spelled
  have noPosition : positionDigits? ((Refusal.malformed fault rest).message text).toList = none := by
    rw [positionDigits?, spelled, findAfter?_message, findAfter?_position]
    intro c among
    constructor
    · rintro rfl
      have digits := not_mem_toDigits (c := 'p') rfl
      simp [digits] at among
    · rintro rfl
      have digits := not_mem_toDigits (c := 'P') rfl
      simp [digits] at among
  have digits : charDigits? ((Refusal.malformed fault rest).message text).toList =
      some (Nat.toDigits 10 (offsetOf text rest)) := by
    have numbers (n : Nat) := not_mem_toDigits (c := '(') rfl n
    rw [spelled, charDigits?_message, charDigits?_append (by decide), charDigits?_append (by decide),
      charDigits?_append (numbers line), charDigits?_append (by decide), charDigits?_append (numbers column),
      charDigits?_append (by decide), charDigits?_char (digits_toDigits _)]
  rw [offsetInMessage, noPosition, digits, Option.none_or]
  cases read : numeral (Nat.toDigits 10 (offsetOf text rest)) with
  | ok n => simp only [read, Except.map]
  | error fault => simp only [read, Except.map]

theorem load_of_malformedJson {s : Store} {text : List Char} {message : String} {place : Place}
    (json : Document.isJson text = true) (short : text.length ≤ s.limits.size)
    (parsed : parse text = (.invalid message (some place), .null)) :
    s.load text = (.error (.unloadable ["Invalid JSON specification: " ++ message ++ " (line " ++
      toString place.line ++ ", column " ++ toString place.column ++ ")"]), s) := by
  have failed : Document.load s.limits text = .error (.malformedJson message (some place)) := by
    simp only [Document.load, Int.not_lt.mpr short, if_false, json, if_true, Document.readJson, parsed]
  simp only [Store.load, failed]
  rfl

/-- The message about a malformed text tells the place that the diagnosis gives. The offset can be read
out of it again, unless it has more digits than are converted; the line and the column stand before it and
name that offset. A store that is to load the text as JSON says the same line and column once more. -/
theorem message_tells_place {text rest : List Char} {fault : Fault}
    (visible : Text.allBlank text = false)
    (refused : decode ⟨nestingLimit, false⟩ text = .error (.malformed fault rest)) :
    ∃ (message : String) (offset : Nat) (line column : Int),
      diagnose text = .invalid message (some ⟨offset, line, column⟩) ∧
      message = fault.message ++ ": line " ++ toString line ++ " column " ++ toString column ++
        " (char " ++ toString offset ++ ")" ∧
      (offsetInMessage message.toList = .ok (some (offset : Int)) ↔ offset < 10 ^ digitLimit) ∧
      Text.Position.Names ⟨line, column⟩ text offset ∧
      ∀ s : Store, Document.isJson text = true → text.length ≤ s.limits.size →
        s.load text = (.error (.unloadable ["Invalid JSON specification: " ++ message ++ " (line " ++
          toString line ++ ", column " ++ toString column ++ ")"]), s) := by
  have parsed := parse_of_malformed visible refused
  have told := fun (s : Store) json short => load_of_malformedJson (s := s) json short parsed
  refine ⟨_, offsetOf text rest, _, _, congrArg Prod.fst parsed, ?_, ?_,
    Text.position_names (Nat.sub_le _ _), told⟩
  · have joined : ": " ++ "line " = ": line " := by decide
    change fault.message ++ ": " ++ whereText text (offsetOf text rest) = _
    rw [whereText, ← joined]
    simp only [String.append_assoc]
  · rw [offsetInMessage_malformed, ← numeral_toDigits_iff]
    cases numeral (Nat.toDigits 10 (offsetOf text rest)) with
    | ok n => simp only [Except.map, Except.ok.injEq, Option.some.injEq]
    | error fault => simp only [Except.map, reduceCtorEq]

/-- A document with no colon behind a name, in its second line. -/
def colonless : List Char := "\x7b\n  \"paths\" []\x7d".toList

theorem message_tells_place_colonless :
    Text.allBlank colonless = false ∧
      decode ⟨nestingLimit, false⟩ colonless = .error (.malformed .colon "[]\x7d".toList) ∧
      diagnose colonless =
        .invalid "Expecting ':' delimiter: line 2 column 11 (char 12)" (some ⟨12, 2, 11⟩) ∧
      offsetInMessage "Expecting ':' delimiter: line 2 column 11 (char 12)".toList = .ok (some 12) ∧
      Document.isJson colonless = true ∧
      ((Store.empty {} countedId).load colonless).1 = .error (.unloadable
        ["Invalid JSON specification: Expecting ':' delimiter: line 2 column 11 (char 12) (line 2, column 11)"]) := by
  have visible : Text.allBlank colonless = false := by decide
  have json : Document.isJson colonless = true := by decide
  have short : (colonless.length : Int) ≤ (Store.empty {} countedId).limits.size := by decide
  have refused : decode ⟨nestingLimit, false⟩ colonless = .error (.malformed .colon "[]\x7d".toList) :=
    eq_error_of_refusal? (by decide +kernel)
  have reported : diagnose colonless =
      .invalid "Expecting ':' delimiter: line 2 column 11 (char 12)" (some ⟨12, 2, 11⟩) := by
    decide +kernel
  obtain ⟨message, offset, line, column, told, _, read, _, loads⟩ := message_tells_place visible refused
  cases reported.symm.trans told
  have readable : 12 < 10 ^ digitLimit :=
    calc 12 < 10 ^ 2 := by decide
      _ ≤ 10 ^ digitLimit := Nat.pow_le_pow_right (by decide) (by decide)
  refine ⟨visible, refused, reported, read.mpr readable, json, ?_⟩
  rw [loads _ json short]
  rfl

end PayloadCheck.Json
