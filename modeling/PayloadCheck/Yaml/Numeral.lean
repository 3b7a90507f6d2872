import PayloadCheck.Number.Binary64
import PayloadCheck.Number.Integer
import PayloadCheck.Text.Case
import PayloadCheck.Text.Split
import PayloadCheck.Yaml.ScalarType

namespace PayloadCheck.Yaml

open Number

/-- Whether a number has a minus before it, and the text behind its sign. -/
def signed : List Char → Bool × List Char
  | '-' :: rest => (true, rest)
  | '+' :: rest => (false, rest)
  | rest => (false, rest)

/-- The number that digits of a radix write. -/
def radixNumber? (radix : Nat) (digits : List Char) : Option Nat :=
  if isRun (fun ch => (Text.hexValue? ch).any (· < radix)) digits then
    some (digits.foldl (fun n ch => radix * n + (Text.hexValue? ch).getD 0) 0)
  else none

/-- The digits of an integer, taken for a number in a radix. -/
def radixInteger (radix : Nat) (digits : List Char) : Except ValueFault Int :=
  match radixNumber? radix digits with
  | some n => .ok n
  | none => .error (.notInteger radix digits)

/-- The integer that decimal digits write. -/
def decimalInteger (text : List Char) : Except ValueFault Int :=
  match numeral text with
  | .ok n => .ok n
  | .error .malformed => .error (.notInteger 10 text)
  | .error (.tooLong digits) => .error (.tooManyDigits digits)

/-- Reads all groups of a number, in their order. -/
def readGroups {α : Type} (read : List Char → Except ValueFault α) :
    List (List Char) → Except ValueFault (List α)
  | [] => .ok []
  | group :: rest =>
    match read group, readGroups read rest with
    | .ok value, .ok values => .ok (value :: values)
    | .error fault, _ => .error fault
    | _, .error fault => .error fault

/-- Reads a number in groups of sixty, the most significant first. It is summed up from the last
group on; `add` adds to a sum a group times the weight of its place. -/
def ofSixties {α : Type} (read : List Char → Except ValueFault α) (start : α)
    (add : α → α → Nat → Except ValueFault α) (text : List Char) : Except ValueFault α :=
  let place (value : α) : α × Nat → Except ValueFault (α × Nat)
    | (sum, weight) => (add sum value weight).map (·, 60 * weight)
  match readGroups read (Text.split ':' text) with
  | .error fault => .error fault
  | .ok values => (values.foldrM place (start, 1)).map (·.1)

def magnitude (v : Version) (body : List Char) : Except ValueFault Int :=
  match body with
  | '0' :: 'b' :: digits => radixInteger 2 digits
  | '0' :: 'x' :: digits => radixInteger 16 digits
  | '0' :: 'o' :: digits => radixInteger 8 digits
  | _ =>
    if v ≠ .current && body.head? == some '0' then radixInteger 8 body
    else if v ≠ .current && body.contains ':' then
      ofSixties decimalInteger 0 (fun sum value weight => .ok (sum + value * weight)) body
    else decimalInteger body

def integer (v : Version) (text : List Char) : Except ValueFault Int :=
  let (isNegative, body) := signed (text.filter (· != '_'))
  (magnitude v body).map fun n => if isNegative then -n else n

/-- The exponent at the end of a number. -/
def exponent? : List Char → Option Int
  | [] => some 0
  | mark :: rest =>
    let (isNegative, digits) := signed rest
    if (mark == 'e' || mark == 'E') && isRun Text.isDecimalDigit digits then
      let n : Int := Text.digitsValue digits
      some (if isNegative then -n else n)
    else none

/-- The number that digits with a point and an exponent write. -/
def decimal? (text : List Char) : Option Binary64 :=
  let whole := text.takeWhile Text.isDecimalDigit
  let rest := text.dropWhile Text.isDecimalDigit
  let (fraction, rest) :=
    match rest with
    | '.' :: rest => (rest.takeWhile Text.isDecimalDigit, rest.dropWhile Text.isDecimalDigit)
    | rest => ([], rest)
  if (whole ++ fraction).isEmpty then none
  else
    (exponent? rest).map fun exponent =>
      Binary64.ofDecimal false (Text.digitsValue (whole ++ fraction)) (exponent - fraction.length)

/-- The number that a text writes without the sign in front. -/
def unsignedFloat (text : List Char) : Except ValueFault Binary64 :=
  let (isNegative, body) := signed (Text.stripBy Text.isWhiteSpace text)
  let found :=
    if ["inf", "infinity"].any (·.toList = body) then some (Binary64.infinite false)
    else if body = "nan".toList then some .nan
    else decimal? body
  match found with
  | some x => .ok (if isNegative then x.negate else x)
  | none => .error (.notFloat text)

/-- The sum and a number times a weight. A weight must have a double next to it. -/
def addWeighted (sum value : Binary64) (weight : Nat) : Except ValueFault Binary64 :=
  match value.scale? weight with
  | some product => .ok (sum.add product)
  | none => .error .weightBeyondRange

/-- The number with a fraction that a text writes. -/
def float (v : Version) (text : List Char) : Except ValueFault Binary64 :=
  let (isNegative, body) := signed (Text.lower (text.filter (· != '_')))
  let magnitude :=
    if body = ".inf".toList then .ok (Binary64.infinite false)
    else if body = ".nan".toList then .ok .nan
    else if v ≠ .current && body.contains ':' then
      ofSixties unsignedFloat (Binary64.finite false 0 (-1074)) addWeighted body
    else unsignedFloat body
  magnitude.map fun x => if isNegative then x.negate else x

/-- The truth value of a word, in any case. -/
def truth (text : List Char) : Except ValueFault Bool :=
  let word := Text.lower text
  if ["yes", "y", "true", "on"].any (·.toList = word) then .ok true
  else if ["no", "n", "false", "off"].any (·.toList = word) then .ok false
  else .error (.notBoolean word)

end PayloadCheck.Yaml
