import BrowserFlow.Decimal.Binary
import BrowserFlow.Text.CharClass
import BrowserFlow.Text.Case

/-!
# Reading numerals

A numeral may have blanks around it, a sign, single underscores between its digits, and the
digits of any script. Reading gives nothing for every other text.
-/

namespace BrowserFlow.Decimal

/-- The blanks around a numeral: white space other than the four information separators. -/
def isNumeralBlank (c : Char) : Bool :=
  Text.isBlank c && !(28 ≤ c.toNat && c.toNat ≤ 31)

def trimNumeral (cs : List Char) : List Char :=
  Text.dropEndWhile isNumeralBlank (cs.dropWhile isNumeralBlank)

/-- The value of a digit in a base up to sixteen. -/
def digitIn? (base : Nat) (c : Char) : Option Nat :=
  let value? :=
    if 'a' ≤ c && c ≤ 'f' then some (c.toNat - 'a'.toNat + 10)
    else if 'A' ≤ c && c ≤ 'F' then some (c.toNat - 'A'.toNat + 10)
    else Text.digitValue? c
  value?.filter (· < base)

/-- The values of digits with single underscores between them; `ready` tells whether an
underscore or the end may come next. -/
def digitRun? (base : Nat) (ready : Bool) : List Char → Option (List Nat)
  | [] => if ready then some [] else none
  | c :: rest =>
    if c = '_' then if ready then digitRun? base false rest else none
    else do
      let d ← digitIn? base c
      return d :: (← digitRun? base true rest)

/-- The number with these digits, most significant first. -/
def ofDigits (base : Nat) (digits : List Nat) : Nat :=
  digits.foldl (fun acc d => acc * base + d) 0

/-- The sign in front of a numeral, and the rest. -/
def signed : List Char → Bool × List Char
  | '-' :: rest => (true, rest)
  | '+' :: rest => (false, rest)
  | cs => (false, cs)

/-- The letters that mark a base in front of its digits. -/
def baseMarks (base : Nat) : List Char :=
  if base == 2 then ['b', 'B'] else if base == 8 then ['o', 'O']
  else if base == 16 then ['x', 'X'] else []

/-- Digits after an optional mark of the base. -/
def unmarked (base : Nat) : List Char → List Char
  | '0' :: c :: rest =>
    if (baseMarks base).contains c then
      match rest with
      | '_' :: after => after
      | _ => rest
    else '0' :: c :: rest
  | cs => cs

/-- The digits of a whole number in a base, with its sign. -/
def wholeDigits? (base : Nat) (s : String) : Option (Bool × List Nat) := do
  let (negative, cs) := signed (trimNumeral s.toList)
  return (negative, ← digitRun? base false (unmarked base cs))

/-- A whole number with its sign. -/
def withSign (negative : Bool) (n : Nat) : Int :=
  if negative then -(n : Int) else n

/-- Reads a whole number in a base. -/
def readWhole? (base : Nat) (s : String) : Option Int := do
  let (negative, digits) ← wholeDigits? base s
  return withSign negative (ofDigits base digits)

/-- The digits of a decimal before or after the point, of which there may be none. -/
def optionalRun? (cs : List Char) : Option (List Nat) :=
  if cs.isEmpty then some [] else digitRun? 10 false cs

/-- A whole number after the mark of an exponent; no mark means zero. -/
def exponent? : List Char → Option Int
  | [] => some 0
  | _ :: cs => do
    let (negative, rest) := signed cs
    return withSign negative (ofDigits 10 (← digitRun? 10 false rest))

/-- Digits, an optional point with more digits, and an optional exponent. -/
def readScaled? (cs : List Char) : Option (Nat × Int) := do
  let isMark := fun c : Char => c = 'e' || c = 'E'
  let body := cs.takeWhile (!isMark ·)
  let whole ← optionalRun? (body.takeWhile (· != '.'))
  let decimals ← optionalRun? ((body.dropWhile (· != '.')).drop 1)
  if whole.isEmpty && decimals.isEmpty then none
  let power ← exponent? (cs.dropWhile (!isMark ·))
  return (ofDigits 10 (whole ++ decimals), power - (decimals.length : Nat))

/-- Reads a double: a decimal, or the words for infinity and for not-a-number. -/
def readFloat? (s : String) : Option Float :=
  let (negative, cs) := signed (trimNumeral s.toList)
  let word := Text.lower (String.ofList cs)
  if word == "inf" || word == "infinity" then some (if negative then -(1 / 0) else 1 / 0)
  else if word == "nan" then some (0 / 0)
  else (readScaled? cs).map fun (digits, exponent) => toFloat negative digits exponent

end BrowserFlow.Decimal
