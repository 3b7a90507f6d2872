import PayloadCheck.InputError
import PayloadCheck.Number.Integer
import PayloadCheck.Text.Split

namespace PayloadCheck.Settings

/-- A text without a fraction of zeros alone. -/
def withoutFraction (text : List Char) : List Char :=
  let whole := text.takeWhile (· ≠ '.')
  if (text.drop (whole.length + 1)).all (· = '0') then whole else text

/-- A text without its underscores, of which none may stand at an end or beside another. -/
def withoutUnderscores? (text : List Char) : Option (List Char) :=
  let parts := Text.split '_' text
  if parts.any (·.isEmpty) then none else some parts.flatten

/-- The digits of an integer and whether it is negative; zeros at the front are for others only. -/
def digits? (text : List Char) : Option (Bool × List Char) :=
  match text with
  | '-' :: digits =>
    if digits.isEmpty || (digits.head? == some '0' && digits.length ≠ 1) then none
    else some (true, digits)
  | [] => none
  | digits => some (false, digits.dropWhile (· = '0'))

/-- A text without a plus sign, which no minus sign may follow. -/
def unsigned? : List Char → Option (List Char)
  | '+' :: '-' :: _ => none
  | '+' :: rest => some rest
  | text => some text

/-- The sign and digits of the integer that a text spells. -/
def spelling? (text : List Char) : Option (Bool × List Char) := do
  let unsigned ← unsigned? (Text.stripBy Text.isWhiteSpace text)
  let plain ← withoutUnderscores? (withoutFraction unsigned)
  let (negative, digits) ← digits? plain
  if digits.all Text.isAsciiDigit then some (negative, digits) else none

def integer (text : List Char) : Except InputFault Int :=
  match spelling? text with
  | none => .error .notInteger
  | some (negative, digits) =>
    if Number.digitLimit < digits.length then .error .integerTooLong
    else
      let value : Int := Text.digitsValue digits
      .ok (if negative then -value else value)

end PayloadCheck.Settings
