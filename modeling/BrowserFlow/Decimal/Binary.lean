/-!
# Binary floating-point numbers, exactly

A finite double is a whole number of units, the unit being a power of two. Decimal output and
rounding start from this exact value, so that no step of them depends on floating-point
arithmetic.
-/

namespace BrowserFlow.Decimal

/-- What a double stands for. A finite one is `± mantissa · 2 ^ exponent`. -/
inductive Binary
  | finite (negative : Bool) (mantissa : Nat) (exponent : Int)
  | infinite (negative : Bool)
  | nan
  deriving Repr, DecidableEq

/-- The exact value of a double. -/
def Binary.ofFloat (x : Float) : Binary :=
  let bits : Nat := x.toBits.toNat
  let negative := bits / Nat.pow 2 63 == 1
  let field : Nat := bits / Nat.pow 2 52 % Nat.pow 2 11
  let fraction : Nat := bits % Nat.pow 2 52
  if field == 2047 then
    if fraction == 0 then .infinite negative else .nan
  else if field == 0 then .finite negative fraction (-1074)
  else .finite negative (fraction + Nat.pow 2 52) ((field : Int) - 1075)

/-- The numerator and denominator of `mantissa · 2 ^ exponent`. -/
def ratio (mantissa : Nat) (exponent : Int) : Nat × Nat :=
  if 0 ≤ exponent then (mantissa * Nat.pow 2 exponent.toNat, 1)
  else (mantissa, Nat.pow 2 (-exponent).toNat)

/-- A number above every finite double. -/
def beyond : Nat :=
  Nat.pow 10 400

/-- The whole part of a finite double, cut toward zero. -/
def wholePart (negative : Bool) (mantissa : Nat) (exponent : Int) : Int :=
  let (num, den) := ratio mantissa exponent
  if negative then -((num / den : Nat) : Int) else (num / den : Nat)

/-!
## Rounding to a fixed number of places

A quotient is rounded to the nearest whole number, a half going to the even neighbour. Rounding a
double to some decimal places applies that to its exact value.
-/

/-- `num / den` rounded to the nearest whole number, a half to the even one. -/
def roundDiv (num den : Nat) : Nat :=
  let q := num / den
  let twice := 2 * (num % den)
  if twice < den then q
  else if den < twice then q + 1
  else if q % 2 == 0 then q else q + 1

/-- The value of a finite double in units of `10 ^ -places`, rounded. -/
def inPlaces (places mantissa : Nat) (exponent : Int) : Nat :=
  let (num, den) := ratio mantissa exponent
  roundDiv (num * Nat.pow 10 places) den

/-- The double `± digits · 10 ^ exponent`, rounded once. Magnitudes far outside the range of
doubles are settled without building the power of ten. -/
def toFloat (negative : Bool) (digits : Nat) (exponent : Int) : Float :=
  let top := ((Nat.toDigits 10 digits).length : Int) + exponent
  let size : Float :=
    if digits == 0 || top < -340 then 0
    else if top > 320 then 1 / 0
    else if 0 ≤ exponent then Float.ofScientific digits false exponent.toNat
    else Float.ofScientific digits true (-exponent).toNat
  if negative then -size else size

/-- A double rounded to a number of decimal places. -/
def roundTo (places : Nat) (x : Float) : Float :=
  match Binary.ofFloat x with
  | .finite negative m e => toFloat negative (inPlaces places m e) (-places)
  | _ => x

/-- The digits of `n` with a point before the last `places` of them. -/
def pointed (places n : Nat) : String :=
  let digits := Nat.toDigits 10 n
  let padded := List.replicate (places + 1 - digits.length) '0' ++ digits
  let (whole, rest) := padded.splitAt (padded.length - places)
  String.ofList (if places == 0 then whole else whole ++ '.' :: rest)

/-- A double written with a fixed number of decimal places. -/
def fixedPlaces (places : Nat) (x : Float) : String :=
  match Binary.ofFloat x with
  | .finite negative m e => (if negative then "-" else "") ++ pointed places (inPlaces places m e)
  | .infinite negative => if negative then "-inf" else "inf"
  | .nan => "nan"

end BrowserFlow.Decimal
