import BrowserFlow.Decimal.Numeral
import BrowserFlow.Text.Case
import BrowserFlow.Text.Scan
import BrowserFlow.Yaml.Tag
import BrowserFlow.Yaml.Error

/-!
# What scalars stand for

The value of a scalar follows from its tag. Underscores in numbers are dropped, numbers may be in
base sixty, and the fraction of a second is cut after six digits.
-/

namespace BrowserFlow.Yaml.Scalar

/-- The sign in front of a number and the rest; there has to be something. -/
def signed (cs : List Char) : Except Error (Bool × List Char) :=
  match cs with
  | [] => .error .noNumber
  | '-' :: rest => .ok (true, rest)
  | '+' :: rest => .ok (false, rest)
  | cs => .ok (false, cs)

/-- A whole number in a base. -/
def wholeIn (base : Nat) (cs : List Char) : Except Error Int :=
  let s := String.ofList cs
  (wholeOfText base s (Text.quoted s)).mapError .whole

/-- The number with these digits of base sixty, most significant first. -/
def ofSixtieths (digits : List Int) : Int :=
  digits.foldl (fun acc d => acc * 60 + d) 0

def whole (text : String) : Except Error Int := do
  let (negative, cs) ← signed (text.toList.filter (· != '_'))
  let size ← match cs with
    | ['0'] => pure 0
    | '0' :: 'b' :: rest => wholeIn 2 rest
    | '0' :: 'x' :: rest => wholeIn 16 rest
    | '0' :: _ => wholeIn 8 cs
    | [] => throw .noNumber
    | _ =>
      if cs.contains ':' then ofSixtieths <$> (Text.splitChars ':' cs).mapM (wholeIn 10)
      else wholeIn 10 cs
  return if negative then -size else size

/-- A double written in decimal. -/
def double (cs : List Char) : Except Error Float :=
  let s := String.ofList cs
  match Decimal.readFloat? s with
  | some x => .ok x
  | none => .error (.double (Text.quoted s))

/-- The sum of base-sixty digits, least significant first, each with its weight. -/
def sumSixtieths (sum weight : Float) : List Float → Float
  | [] => sum
  | d :: rest => sumSixtieths (sum + d * weight) (weight * 60) rest

def float (text : String) : Except Error Float := do
  let (negative, cs) ← signed ((Text.lower text).toList.filter (· != '_'))
  let size ←
    if cs = ".inf".toList then pure (1 / 0)
    else if cs = ".nan".toList then return (0 / 0)
    else if cs.contains ':' then do
      let digits ← (Text.splitChars ':' cs).mapM double
      pure (sumSixtieths 0 1 digits.reverse)
    else double cs
  return if negative then -size else size

/-- The truth value of a word in any case. -/
def truth (text : String) : Except Error Bool :=
  let word := Text.lower text
  if ["yes", "true", "on"].contains word then .ok true
  else if ["no", "false", "off"].contains word then .ok false
  else .error .truth

def number (cs : List Char) : Nat :=
  Decimal.ofDigits 10 (cs.map fun c => c.toNat - '0'.toNat)

/-- The first six digits of a fraction of a second, as microseconds. -/
def micros (digits : List Char) : Nat :=
  let kept := digits.take 6
  number (kept ++ List.replicate (6 - kept.length) '0')

/-- The offset of a zone in minutes. -/
def offset (zone : Option (Bool × List Char × List Char)) : Int :=
  match zone with
  | none => 0
  | some (negative, hours, minutes) =>
    Decimal.withSign negative (number hours * 60 + number minutes)

/-- A date, or a moment if there is a time. -/
def moment (text : String) : Except Error Value :=
  match Form.moment? text.toList with
  | none => .error .notAMoment
  | some m =>
    let year := number m.year
    let month := number m.month
    let day := number m.day
    match m.time with
    | none => ((Date.make year month day).map Value.date).mapError .calendar
    | some (hour, minute, second) =>
      let time : TimeOfDay := ⟨number hour, number minute, number second, micros m.fraction⟩
      ((Moment.make year month day time (m.zone.map offset)).map Value.moment).mapError .calendar

/-- The value of a character of base 64. -/
def base64Digit? (c : Char) : Option Nat :=
  if 'A' ≤ c && c ≤ 'Z' then some (c.toNat - 'A'.toNat)
  else if 'a' ≤ c && c ≤ 'z' then some (c.toNat - 'a'.toNat + 26)
  else if '0' ≤ c && c ≤ '9' then some (c.toNat - '0'.toNat + 52)
  else if c = '+' then some 62
  else if c = '/' then some 63
  else none

/-- Base 64: four characters for three bytes. Characters of no meaning are skipped, and reading
ends where padding completes a group. `held` are the digits of the group read so far, the first
of them last; `pads` counts the padding in it. -/
def bytesFrom (held : List Nat) (pads : Nat) : List Char → Option (List UInt8)
  | [] => if held.isEmpty then some [] else none
  | c :: cs =>
    if c = '=' then
      match held, pads with
      | [b, a], 0 =>
        -- one more pad is needed to complete the group
        bytesFrom [b, a] 1 cs
      | [b, a], _ => some [UInt8.ofNat (a * 4 + b / 16)]
      | [x, b, a], _ => some [UInt8.ofNat (a * 4 + b / 16), UInt8.ofNat (b % 16 * 16 + x / 4)]
      | _, _ => bytesFrom held pads cs
    else
      match base64Digit? c with
      | none => bytesFrom held pads cs
      | some d =>
        match held with
        | [x, b, a] => do
          let rest ← bytesFrom [] 0 cs
          return UInt8.ofNat (a * 4 + b / 16) :: UInt8.ofNat (b % 16 * 16 + x / 4) ::
            UInt8.ofNat (x % 4 * 64 + d) :: rest
        | _ => bytesFrom (d :: held) 0 cs

/-- The bytes of a text in base 64, which has to be ASCII. -/
def bytes (text : String) : Except Error (List UInt8) :=
  let cs := text.toList
  if cs.all fun c => c.toNat < 128 then
    match bytesFrom [] 0 cs with
    | some data => .ok data
    | none => .error .malformed
  else .error .malformed

/-- The value of a scalar with a tag. -/
def value (tag : Tag) (text : String) : Except Error Value :=
  match tag with
  | .null => .ok .null
  | .bool => (truth text).map .bool
  | .int => (whole text).map .int
  | .float => (float text).map .float
  | .binary => (bytes text).map .bytes
  | .timestamp => moment text
  | .str => .ok (.text text)
  | _ => .error .malformed

end BrowserFlow.Yaml.Scalar
