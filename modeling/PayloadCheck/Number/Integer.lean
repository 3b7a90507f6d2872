import PayloadCheck.Text.Blank
import PayloadCheck.Text.Digit

namespace PayloadCheck.Number

/-- The greatest number of decimal digits that is converted. -/
def digitLimit : Nat := 4300

/-- What is said of a text with too many digits to be converted. -/
def tooManyDigitsMessage (digits : Nat) : String :=
  "Exceeds the limit (" ++ toString digitLimit ++
    " digits) for integer string conversion: value has " ++ toString digits ++
    " digits; use sys.set_int_max_str_digits() to increase the limit"

/-- What is said of an integer with too many digits to be written. -/
def tooLongMessage : String :=
  "Exceeds the limit (" ++ toString digitLimit ++
    " digits) for integer string conversion; use sys.set_int_max_str_digits() to increase the limit"

/-- The text of an integer, unless it has too many digits. -/
def text? (n : Int) : Option String :=
  let digits := Nat.toDigits 10 n.natAbs
  if digitLimit < digits.length then none
  else some ((if n < 0 then "-" else "") ++ String.ofList digits)

/-- The digits of a number with a comma before each group of three. -/
def grouped (n : Nat) : String :=
  let rec go : List Char → List Char
    | a :: b :: c :: d :: rest => a :: b :: c :: ',' :: go (d :: rest)
    | rest => rest
  String.ofList (go (Nat.toDigits 10 n).reverse).reverse

/-- The digits of an integer with a comma before each group of three. -/
def groupedInt (n : Int) : String := (if n < 0 then "-" else "") ++ grouped n.natAbs

/-- The digits of a text in which single underscores may stand between digits. -/
def digitsOf? (belongs : Char → Bool) : List Char → Option (List Char)
  | [] => none
  | [c] => if belongs c then some [c] else none
  | c :: '_' :: rest => if belongs c then (digitsOf? belongs rest).map (c :: ·) else none
  | c :: rest => if belongs c then (digitsOf? belongs rest).map (c :: ·) else none

/-- Why a text is not taken for an integer. -/
inductive NumeralFault
  | malformed
  | tooLong (digits : Nat)
deriving DecidableEq, Repr

/-- Whether a text has a minus sign at its front, and the text behind its sign. -/
def signed : List Char → Bool × List Char
  | '-' :: rest => (true, rest)
  | '+' :: rest => (false, rest)
  | text => (false, text)

/-- The integer that a text writes: white space around it, a sign, and decimal digits of any script with
single underscores between them. -/
def numeral (text : List Char) : Except NumeralFault Int :=
  let (negative, unsigned) := signed (Text.stripBy Text.isWhiteSpace text)
  match digitsOf? Text.isDecimalDigit unsigned with
  | none => .error .malformed
  | some digits =>
    if digitLimit < digits.length then .error (.tooLong digits.length)
    else
      let value : Int := Text.digitsValue digits
      .ok (if negative then -value else value)

end PayloadCheck.Number
