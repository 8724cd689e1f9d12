import BrowserFlow.Decimal.Binary

/-!
# The shortest decimal that reads back

Every double is the nearest double to all reals of a small interval around it. Among the decimals
of that interval this module finds the one with the fewest digits, and of several with that many
digits the one nearest to the double. Seventeen digits always suffice.

On the grid of the decimals with `n` digits only the two neighbours of the double need a look: if
any point of the grid lies in the interval, one of them does.
-/

namespace BrowserFlow.Decimal

/-- The decimal `digits · 10 ^ exponent`. -/
structure Scaled where
  digits : Nat
  exponent : Int
  deriving Repr, DecidableEq

/-- The least `j` in `[start, start + fuel]` with `den ≤ num · 10 ^ j`. -/
def leadingZeros (num den : Nat) : Nat → Nat → Nat
  | 0, j => j
  | fuel + 1, j => if den ≤ num * Nat.pow 10 j then j else leadingZeros num den fuel (j + 1)

/-- The `d` with `10 ^ (d - 1) ≤ num / den < 10 ^ d`, for a positive quotient. -/
def magnitude (num den : Nat) : Int :=
  if den ≤ num then ((Nat.toDigits 10 (num / den)).length : Int)
  else 1 - (leadingZeros num den 400 1 : Nat)

/-- A positive double together with the interval of reals that round to it: all three numbers are
over the denominator `den`, and the ends belong to the interval when `closed`. -/
structure Neighbourhood where
  low : Nat
  value : Nat
  high : Nat
  den : Nat
  closed : Bool

/-- The neighbourhood of `mantissa · 2 ^ exponent`. Below a power of two the doubles lie twice as
close together, unless it is the least normal one. -/
def Neighbourhood.of (mantissa : Nat) (exponent : Int) : Neighbourhood :=
  let below := if mantissa == Nat.pow 2 52 && exponent > -1074 then 1 else 2
  let (unit, den) := ratio 1 exponent
  { low := (4 * mantissa - below) * unit
    value := 4 * mantissa * unit
    high := (4 * mantissa + 2) * unit
    den := 4 * den
    closed := mantissa % 2 == 0 }

/-- Whether `num / den` lies in the interval. -/
def Neighbourhood.holds (b : Neighbourhood) (num den : Nat) : Bool :=
  let l := b.low * den
  let x := num * b.den
  let h := b.high * den
  if b.closed then l ≤ x && x ≤ h else l < x && x < h

/-- The point of the grid `10 ^ k` that reads back and lies nearest to the value, if one does. A
value half way between two points that both read back takes the even one. -/
def Neighbourhood.onGrid? (b : Neighbourhood) (k : Int) : Option Nat :=
  let (up, down) := if 0 ≤ k then (Nat.pow 10 k.toNat, 1) else (1, Nat.pow 10 (-k).toNat)
  -- the value in units of the grid is `value * down / (den * up)`
  let num := b.value * down
  let den := b.den * up
  let a := num / den
  let lower := 0 < a && b.holds (a * up) down
  let upper := b.holds ((a + 1) * up) down
  let twice := 2 * (num % den)
  match lower, upper with
  | true, true =>
    if twice < den then some a
    else if den < twice then some (a + 1)
    else some (if a % 2 == 0 then a else a + 1)
  | true, false => some a
  | false, true => some (a + 1)
  | false, false => none

/-- Tries the grids from the coarsest on; `left` more are to be tried. -/
def Neighbourhood.search (b : Neighbourhood) (top : Int) : (left : Nat) → (n : Nat) → Scaled
  | 0, _ => ⟨b.value / b.den, 0⟩
  | left + 1, n =>
    match b.onGrid? (top - n) with
    | some d => ⟨d, top - n⟩
    | none => b.search top left (n + 1)

/-- The shortest decimal that reads back as the positive double `mantissa · 2 ^ exponent`. -/
def shortest (mantissa : Nat) (exponent : Int) : Scaled :=
  let (num, den) := ratio mantissa exponent
  (Neighbourhood.of mantissa exponent).search (magnitude num den) 17 1

/-!
## How numbers are written

A double is written with the fewest digits that read back. From `0.0001` up to, but not
including, `10 ^ 16` it is written positionally with at least one digit after the point; smaller
and larger ones have an exponent of at least two digits with its sign.
-/

/-- A number that is a whole multiple of ten, with its zeros moved to the exponent. -/
def Scaled.normalize (s : Scaled) : Scaled :=
  let digits := Nat.toDigits 10 s.digits
  let kept := (digits.reverse.dropWhile (· == '0')).reverse
  let zeros := digits.length - kept.length
  ⟨s.digits / Nat.pow 10 zeros, s.exponent + zeros⟩

/-- The text of `digits · 10 ^ exponent`, for positive digits. -/
def Scaled.text (s : Scaled) : String :=
  let s := s.normalize
  let digits := Nat.toDigits 10 s.digits
  -- the point stands after this many digits
  let point : Int := digits.length + s.exponent
  String.ofList <|
    if -4 < point && point ≤ 16 then
      if point ≤ 0 then '0' :: '.' :: (List.replicate (-point).toNat '0' ++ digits)
      else if 0 ≤ s.exponent then digits ++ List.replicate s.exponent.toNat '0' ++ ['.', '0']
      else digits.take point.toNat ++ '.' :: digits.drop point.toNat
    else
      let power := point - 1
      let size := Nat.toDigits 10 power.natAbs
      let head := match digits with
        | [d] => [d]
        | d :: rest => d :: '.' :: rest
        | [] => []
      head ++ 'e' :: (if power < 0 then '-' else '+') ::
        ((if size.length < 2 then ['0'] else []) ++ size)

/-- The text of a double. -/
def floatText (x : Float) : String :=
  match Binary.ofFloat x with
  | .finite negative 0 _ => if negative then "-0.0" else "0.0"
  | .finite negative m e => (if negative then "-" else "") ++ (shortest m e).text
  | .infinite negative => if negative then "-inf" else "inf"
  | .nan => "nan"

end BrowserFlow.Decimal
