import BrowserFlow.Decimal.Numeral
import BrowserFlow.Value.Literal

/-!
# Values as whole numbers

Numbers are cut toward zero and texts are read as numerals. What cannot be converted is refused
with its cause.
-/

namespace BrowserFlow

/-- Why a value is not a whole number. -/
inductive WholeError
  /-- The text, given in its literal form, is no numeral in that base. -/
  | numeral (base : Nat) (literal : String)
  /-- The numeral has more digits than are read. -/
  | tooLong (digits : Nat)
  | notANumber
  | infinite
  | kind (name : String)
  deriving Repr, DecidableEq

def WholeError.message : WholeError → String
  | .numeral base literal =>
    "invalid literal for int() with base " ++ toString base ++ ": " ++
      String.ofList (literal.toList.take 200)
  | .tooLong digits =>
    "Exceeds the limit (4300 digits) for integer string conversion: value has " ++
      toString digits ++ " digits; use sys.set_int_max_str_digits() to increase the limit"
  | .notANumber => "cannot convert float NaN to integer"
  | .infinite => "cannot convert float infinity to integer"
  | .kind name =>
    "int() argument must be a string, a bytes-like object or a real number, not '" ++ name ++ "'"

/-- The whole number that a text stands for; `literal` is its form in messages. -/
def wholeOfText (base : Nat) (s literal : String) : Except WholeError Int :=
  match Decimal.wholeDigits? base s with
  | none => .error (.numeral base literal)
  | some (negative, digits) =>
    if 4300 < digits.length && base == 10 then .error (.tooLong digits.length)
    else .ok (Decimal.withSign negative (Decimal.ofDigits base digits))

/-- The whole number that a double contains. -/
def wholeOfFloat (x : Float) : Except WholeError Int :=
  match Decimal.Binary.ofFloat x with
  | .finite negative m e => .ok (Decimal.wholePart negative m e)
  | .infinite _ => .error .infinite
  | .nan => .error .notANumber

/-- Bytes as a text for numerals, in which only ASCII has a meaning. -/
def numeralOfBytes (data : List UInt8) : String :=
  String.ofList (data.map fun b => if b < 128 then Char.ofNat b.toNat else '?')

/-- The whole number that a value stands for. -/
def Value.toWhole : Value → Except WholeError Int
  | .bool b => .ok (if b then 1 else 0)
  | .int n => .ok n
  | .float x => wholeOfFloat x
  | .text s => wholeOfText 10 s (Text.quoted s)
  | .bytes data => wholeOfText 10 (numeralOfBytes data) (Text.quotedBytes data)
  | v => .error (.kind v.kindName)

end BrowserFlow
