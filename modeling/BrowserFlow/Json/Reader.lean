import BrowserFlow.Decimal.Numeral
import BrowserFlow.Value.Basic

/-!
# Reading JSON text

Reads one JSON value with nothing but white space around it. Beside the standard the words `NaN`,
`Infinity` and `-Infinity` are numbers. A whole number stays exact; a number with a point or an
exponent is a double. The last of several entries with one key counts, in the place of the first.
-/

namespace BrowserFlow.Json

/-- Why a text is not read as JSON. -/
inductive ReadError
  | malformed
  /-- A whole number with more digits than are read. -/
  | tooLong (digits : Nat)
  deriving Repr, DecidableEq

def isSpace (c : Char) : Bool :=
  c = ' ' || c = '\t' || c = '\n' || c = '\r'

def skipSpace (cs : List Char) : List Char :=
  cs.dropWhile isSpace

/-- Four hexadecimal digits. -/
def unit? : List Char → Option (Nat × List Char)
  | a :: b :: c :: d :: rest => do
    let digits ← [a, b, c, d].mapM fun x => if x.toNat < 128 then Decimal.digitIn? 16 x else none
    return (Decimal.ofDigits 16 digits, rest)
  | _ => none

/-- The character of one or two units, given the first; half of a pair has no character. -/
def unitChar (first : Nat) (rest : List Char) : Char × List Char :=
  if 0xD800 ≤ first && first < 0xDC00 then
    match rest with
    | '\\' :: 'u' :: more =>
      match unit? more with
      | some (second, after) =>
        if 0xDC00 ≤ second && second < 0xE000 then
          (Char.ofNat (0x10000 + (first - 0xD800) * 0x400 + (second - 0xDC00)), after)
        else ('\uFFFD', rest)
      | none => ('\uFFFD', rest)
    | _ => ('\uFFFD', rest)
  else if 0xDC00 ≤ first && first < 0xE000 then ('\uFFFD', rest)
  else (Char.ofNat first, rest)

/-- The character of a one-letter escape. -/
def letterEscape? : Char → Option Char
  | '"' => some '"'
  | '\\' => some '\\'
  | '/' => some '/'
  | 'b' => some '\x08'
  | 'f' => some '\x0c'
  | 'n' => some '\n'
  | 'r' => some '\r'
  | 't' => some '\t'
  | _ => none

/-- The rest of a string after its opening quote. -/
def stringTail : (fuel : Nat) → List Char → Except ReadError (List Char × List Char)
  | 0, _ => .error .malformed
  | _ + 1, [] => .error .malformed
  | _ + 1, '"' :: rest => .ok ([], rest)
  | fuel + 1, '\\' :: 'u' :: rest =>
    match unit? rest with
    | none => .error .malformed
    | some (first, after) => do
      let (c, after) := unitChar first after
      let (cs, rest) ← stringTail fuel after
      return (c :: cs, rest)
  | fuel + 1, '\\' :: c :: rest =>
    match letterEscape? c with
    | none => .error .malformed
    | some c => do
      let (cs, rest) ← stringTail fuel rest
      return (c :: cs, rest)
  | fuel + 1, c :: rest =>
    if c.toNat < 0x20 || c = '\\' then .error .malformed
    else do
      let (cs, rest) ← stringTail fuel rest
      return (c :: cs, rest)

def isDigit (c : Char) : Bool :=
  '0' ≤ c && c ≤ '9'

def digitValues (cs : List Char) : List Nat :=
  cs.map fun c => c.toNat - '0'.toNat

/-- The decimals after a point, if there is one with digits after it. -/
def fractionPart : List Char → List Char × List Char
  | '.' :: rest =>
    let digits := rest.takeWhile isDigit
    if digits.isEmpty then ([], '.' :: rest) else (digits, rest.dropWhile isDigit)
  | cs => ([], cs)

/-- An exponent, if there is one with digits. -/
def exponentPart (cs : List Char) : Option Int × List Char :=
  match cs with
  | c :: rest =>
    if c = 'e' || c = 'E' then
      let (negative, body) := Decimal.signed rest
      let digits := body.takeWhile isDigit
      if digits.isEmpty then (none, cs)
      else (some (Decimal.withSign negative (Decimal.ofDigits 10 (digitValues digits))),
        body.dropWhile isDigit)
    else (none, cs)
  | [] => (none, cs)

/-- The digits before the point: a lone zero, or digits that do not begin with zero. -/
def wholePart : List Char → List Char × List Char
  | '0' :: rest => (['0'], rest)
  | cs => (cs.takeWhile isDigit, cs.dropWhile isDigit)

/-- A number without its sign. -/
def number (negative : Bool) (cs : List Char) : Except ReadError (Value × List Char) :=
  let (whole, rest) := wholePart cs
  if whole.isEmpty then .error .malformed
  else
    let (decimals, rest) := fractionPart rest
    let (power, rest) := exponentPart rest
    if decimals.isEmpty && power.isNone then
      if 4300 < whole.length then .error (.tooLong whole.length)
      else .ok (.int (Decimal.withSign negative (Decimal.ofDigits 10 (digitValues whole))), rest)
    else
      let digits := Decimal.ofDigits 10 (digitValues (whole ++ decimals))
      .ok (.float (Decimal.toFloat negative digits (power.getD 0 - (decimals.length : Nat))), rest)

mutual

/-- One value after white space. -/
def value : (fuel : Nat) → List Char → Except ReadError (Value × List Char)
  | 0, _ => .error .malformed
  | fuel + 1, cs =>
    match skipSpace cs with
    | '"' :: rest => do
      let (s, rest) ← stringTail (rest.length + 1) rest
      return (.text (String.ofList s), rest)
    | '[' :: rest =>
      match skipSpace rest with
      | ']' :: rest => .ok (.list [], rest)
      | _ => do
        let (vs, rest) ← items fuel rest
        return (.list vs, rest)
    | '\x7b' :: rest =>
      match skipSpace rest with
      | '\x7d' :: rest => .ok (.map [], rest)
      | _ => do
        let (es, rest) ← entries fuel [] rest
        return (.map es, rest)
    | 'n' :: 'u' :: 'l' :: 'l' :: rest => .ok (.null, rest)
    | 't' :: 'r' :: 'u' :: 'e' :: rest => .ok (.bool true, rest)
    | 'f' :: 'a' :: 'l' :: 's' :: 'e' :: rest => .ok (.bool false, rest)
    | 'N' :: 'a' :: 'N' :: rest => .ok (.float (0 / 0), rest)
    | 'I' :: 'n' :: 'f' :: 'i' :: 'n' :: 'i' :: 't' :: 'y' :: rest => .ok (.float (1 / 0), rest)
    | '-' :: 'I' :: 'n' :: 'f' :: 'i' :: 'n' :: 'i' :: 't' :: 'y' :: rest =>
      .ok (.float (-(1 / 0)), rest)
    | '-' :: rest => number true rest
    | rest => number false rest

/-- The items of a list up to its closing bracket; there is at least one. -/
def items : (fuel : Nat) → List Char → Except ReadError (List Value × List Char)
  | 0, _ => .error .malformed
  | fuel + 1, cs => do
    let (v, rest) ← value fuel cs
    match skipSpace rest with
    | ',' :: rest => do
      let (vs, rest) ← items fuel rest
      return (v :: vs, rest)
    | ']' :: rest => return ([v], rest)
    | _ => .error .malformed

/-- The entries of an object up to its closing brace, put after those already read. -/
def entries : (fuel : Nat) → List (Value × Value) → List Char →
    Except ReadError (List (Value × Value) × List Char)
  | 0, _, _ => .error .malformed
  | fuel + 1, done, cs =>
    match skipSpace cs with
    | '"' :: rest => do
      let (key, rest) ← stringTail (rest.length + 1) rest
      match skipSpace rest with
      | ':' :: rest => do
        let (v, rest) ← value fuel rest
        let done := Value.putEntry done (.text (String.ofList key)) v
        match skipSpace rest with
        | ',' :: rest => entries fuel done rest
        | '\x7d' :: rest => return (done, rest)
        | _ => .error .malformed
      | _ => .error .malformed
    | _ => .error .malformed

end

/-- Reads a JSON text. -/
def read (s : String) : Except ReadError Value := do
  let cs := s.toList
  let (v, rest) ← value (2 * cs.length + 2) cs
  if (skipSpace rest).isEmpty then return v else .error .malformed

end BrowserFlow.Json
