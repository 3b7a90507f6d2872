namespace PayloadCheck.Number

/-- A number of the binary64 format. A finite one stands for `mantissa * 2 ^ exponent`, and is
normalised: its mantissa lies below `2 ^ 53`, its exponent is at least `-1074`, and a mantissa
below `2 ^ 52` goes with the exponent `-1074`. -/
inductive Binary64
  | finite (negative : Bool) (mantissa : Nat) (exponent : Int)
  | infinite (negative : Bool)
  | nan
deriving DecidableEq, Repr, Inhabited

namespace Binary64

/-- The nearest integer to `num / den`, a half going to the even neighbour. -/
def roundDiv (num den : Nat) : Nat :=
  let quotient := num / den
  let twice := 2 * (num % den)
  if den < twice || (twice == den && quotient % 2 == 1) then quotient + 1 else quotient

/-- The greatest `k` with `2 ^ k ≤ num / den`. -/
def floorLog2 (num den : Nat) : Int :=
  let guess : Int := (num.log2 : Int) - den.log2
  let reached :=
    if 0 ≤ guess then den * Nat.pow 2 guess.toNat ≤ num else den ≤ num * Nat.pow 2 (-guess).toNat
  if reached then guess else guess - 1

/-- The finite number `mantissa * 2 ^ exponent`, or infinity where the exponent is out of range. A
mantissa that reached `2 ^ 53` by rounding is brought back. -/
def pack (negative : Bool) (mantissa : Nat) (exponent : Int) : Binary64 :=
  let (mantissa, exponent) :=
    if mantissa == Nat.pow 2 53 then (Nat.pow 2 52, exponent + 1) else (mantissa, exponent)
  if 971 < exponent then .infinite negative else .finite negative mantissa exponent

/-- The number nearest to the fraction `num / den`. -/
def ofRatio (negative : Bool) (num den : Nat) : Binary64 :=
  if num == 0 then .finite negative 0 (-1074)
  else
    let exponent := max (-1074) (floorLog2 num den - 52)
    let mantissa :=
      if 0 ≤ exponent then roundDiv num (den * Nat.pow 2 exponent.toNat)
      else roundDiv (num * Nat.pow 2 (-exponent).toNat) den
    pack negative mantissa exponent

/-- The number nearest to `digits * 10 ^ exponent`. Powers of ten beyond the range of the format
are not computed. -/
def ofDecimal (negative : Bool) (digits : Nat) (exponent : Int) : Binary64 :=
  let size : Int := (Nat.toDigits 10 digits).length + exponent
  if digits == 0 || size < -330 then .finite negative 0 (-1074)
  else if 310 < size then .infinite negative
  else if 0 ≤ exponent then ofRatio negative (digits * Nat.pow 10 exponent.toNat) 1
  else ofRatio negative digits (Nat.pow 10 (-exponent).toNat)

/-- The fraction `m / d` for which the magnitude of a finite number is `m / d`. -/
def magnitude (mantissa : Nat) (exponent : Int) : Nat × Nat :=
  if 0 ≤ exponent then (mantissa * Nat.pow 2 exponent.toNat, 1)
  else (mantissa, Nat.pow 2 (-exponent).toNat)

def isIntegral : Binary64 → Bool
  | .finite _ mantissa exponent =>
    let (num, den) := magnitude mantissa exponent
    num % den == 0
  | _ => false

/-- The exact value of a finite number as an integer over a power of two. -/
def signedRatio? : Binary64 → Option (Int × Nat)
  | .finite negative mantissa exponent =>
    let (num, den) := magnitude mantissa exponent
    some (if negative then -(num : Int) else num, den)
  | _ => none

/-- Equality of numbers: the two zeros are equal, and a NaN equals nothing. -/
def same : Binary64 → Binary64 → Bool
  | .infinite p, .infinite q => p == q
  | x, y =>
    match x.signedRatio?, y.signedRatio? with
    | some (a, b), some (c, d) => a * d == c * b
    | _, _ => false

/-- Whether a number is exactly the given integer. -/
def sameInt (x : Binary64) (n : Int) : Bool :=
  match x.signedRatio? with
  | some (num, den) => num == n * den
  | none => false

def negate : Binary64 → Binary64
  | .finite negative mantissa exponent => .finite (!negative) mantissa exponent
  | .infinite negative => .infinite (!negative)
  | .nan => .nan

/-- The number nearest to a signed fraction; a zero is positive. -/
def ofSignedRatio (num : Int) (den : Nat) : Binary64 := ofRatio (num < 0) num.natAbs den

/-- The sum of two numbers, rounded. Infinities of both signs have none. -/
def add : Binary64 → Binary64 → Binary64
  | .infinite p, .infinite q => if p == q then .infinite p else .nan
  | .infinite p, .finite _ _ _ => .infinite p
  | .finite _ _ _, .infinite q => .infinite q
  | x, y =>
    match x.signedRatio?, y.signedRatio? with
    | some (a, b), some (c, d) => ofSignedRatio (a * d + c * b) (b * d)
    | _, _ => .nan

/-- The product with a positive integer, rounded. The integer is rounded before, and may be too great
for that. -/
def scale? (x : Binary64) (n : Nat) : Option Binary64 :=
  (ofRatio false n 1).signedRatio?.map fun (c, d) =>
    match x.signedRatio? with
    | some (a, b) => ofSignedRatio (a * c) (b * d)
    | none => x

/-- The 64 bits of the interchange format. -/
def toBits : Binary64 → Nat
  | .finite negative mantissa exponent =>
    let sign := if negative then Nat.pow 2 63 else 0
    if mantissa < Nat.pow 2 52 then sign + mantissa
    else sign + (exponent + 1075).toNat * Nat.pow 2 52 + (mantissa - Nat.pow 2 52)
  | .infinite negative => (if negative then Nat.pow 2 63 else 0) + 2047 * Nat.pow 2 52
  | .nan => 2047 * Nat.pow 2 52 + Nat.pow 2 51

end Binary64

end PayloadCheck.Number
