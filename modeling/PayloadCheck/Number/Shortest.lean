import PayloadCheck.Number.Binary64

namespace PayloadCheck.Number

/-- A decimal `digits * 10 ^ exponent`. -/
structure Decimal where
  digits : Nat
  exponent : Int
deriving DecidableEq, Repr, Inhabited

/-- `num / den` brought to units of `10 ^ exponent`. -/
def scaled (num den : Nat) (exponent : Int) : Nat × Nat :=
  if 0 ≤ exponent then (num, den * Nat.pow 10 exponent.toNat)
  else (num * Nat.pow 10 (-exponent).toNat, den)

/-- The greatest `k` with `10 ^ k ≤ num / den`. -/
def floorLog10 (num den : Nat) : Int :=
  if den ≤ num then (Nat.toDigits 10 (num / den)).length - 1
  else
    let length := (Nat.toDigits 10 (den / num)).length
    if num * Nat.pow 10 (length - 1) == den then 1 - (length : Int) else -(length : Int)

/-- The decimals with `count` digits next to `4 * mantissa` quarter units, of which those are kept
that lie in the interval of values rounding to it; the nearer one if both do, and the even one of
two equally near. -/
def nearestWith (mantissa quarterLow quarterHigh num den : Nat) (exponent : Int) : Option Decimal :=
  let closed := mantissa % 2 == 0
  let (value, unit) := scaled (4 * mantissa * num) den exponent
  let (low, _) := scaled (quarterLow * num) den exponent
  let (high, _) := scaled (quarterHigh * num) den exponent
  let below := value / unit
  let fits := fun digits =>
    let point := digits * unit
    if closed then low ≤ point && point ≤ high else low < point && point < high
  let remainder := value % unit
  let upper := unit < 2 * remainder || (2 * remainder == unit && below % 2 == 1)
  match fits below, fits (below + 1) with
  | true, true => some ⟨if upper then below + 1 else below, exponent⟩
  | true, false => some ⟨below, exponent⟩
  | false, true => some ⟨below + 1, exponent⟩
  | false, false => none

/-- The decimal with the fewest digits among those that round to `mantissa * 2 ^ exponent`, and of
these the nearest. Seventeen digits always suffice. -/
def shortest (mantissa : Nat) (exponent : Int) : Decimal :=
  let quarterLow :=
    if mantissa == Nat.pow 2 52 && -1074 < exponent then 4 * mantissa - 1 else 4 * mantissa - 2
  let quarterHigh := 4 * mantissa + 2
  let (num, den) := Binary64.magnitude 1 (exponent - 2)
  let leading := floorLog10 (4 * mantissa * num) den
  ((List.range 17).findSome? fun (count : Nat) =>
    nearestWith mantissa quarterLow quarterHigh num den (leading - count)).getD ⟨mantissa, 0⟩

/-- The digits of a decimal without trailing zeros, and the place of its point: the value is
`0.d₁d₂… * 10 ^ place`. -/
def Decimal.significand (x : Decimal) : List Char × Int :=
  let digits := Nat.toDigits 10 x.digits
  ((digits.reverse.dropWhile (· == '0')).reverse, digits.length + x.exponent)

/-- How numbers with a fraction are written: where positional notation ends, and the spellings of
the values that are not finite. -/
structure FloatFormat where
  infinite : String
  nan : String
  least : Int
  most : Int

/-- An exponent has a sign and at least two digits. -/
def exponentText (exponent : Int) : String :=
  let digits := toString exponent.natAbs
  (if exponent < 0 then "-" else "+") ++ (if digits.length < 2 then "0" ++ digits else digits)

/-- The text of a number: positional while the point stands between `least` and `most`, with a
fraction of at least one digit, and scientific elsewhere. -/
def FloatFormat.text (format : FloatFormat) : Binary64 → String
  | .nan => format.nan
  | .infinite negative => (if negative then "-" else "") ++ format.infinite
  | .finite negative mantissa exponent =>
    let sign := if negative then "-" else ""
    if mantissa == 0 then sign ++ "0.0"
    else
      let (digits, place) := (shortest mantissa exponent).significand
      let count : Int := digits.length
      if place < format.least || format.most < place then
        let fraction := digits.drop 1
        sign ++ String.ofList (digits.take 1) ++
          (if fraction.isEmpty then "" else "." ++ String.ofList fraction) ++
          "e" ++ exponentText (place - 1)
      else if place ≤ 0 then
        sign ++ "0." ++ String.ofList (List.replicate (-place).toNat '0' ++ digits)
      else if count ≤ place then
        sign ++ String.ofList (digits ++ List.replicate (place - count).toNat '0') ++ ".0"
      else
        sign ++ String.ofList (digits.take place.toNat) ++ "." ++
          String.ofList (digits.drop place.toNat)

end PayloadCheck.Number
