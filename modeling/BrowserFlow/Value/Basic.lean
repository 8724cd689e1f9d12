import BrowserFlow.Calendar
import BrowserFlow.Decimal.Binary
import BrowserFlow.Table

/-!
# Values

What a step document, a page script, a variable or a model's answer may hold. Mappings keep their
entries in order; their keys may be any scalar. Numbers of different kinds are equal when they
are the same number, and the truth values are the numbers zero and one.
-/

namespace BrowserFlow

inductive Value
  | null
  | bool (b : Bool)
  | int (n : Int)
  | float (x : Float)
  | text (s : String)
  | bytes (data : List UInt8)
  | date (d : Date)
  | moment (m : Moment)
  | list (items : List Value)
  /-- An entry of an ordered mapping that was written as a list of pairs. -/
  | pair (first second : Value)
  | map (entries : List (Value × Value))
  | set (items : List Value)
  deriving Inhabited

namespace Value

/-- The name of the kind of a value, as messages give it. -/
def kindName : Value → String
  | null => "NoneType"
  | bool _ => "bool"
  | int _ => "int"
  | float _ => "float"
  | text _ => "str"
  | bytes _ => "bytes"
  | date _ => "date"
  | moment _ => "datetime"
  | list _ => "list"
  | pair _ _ => "tuple"
  | map _ => "dict"
  | set _ => "set"

/-- Zero, the empty text, the empty collection and null are false, all else is true. -/
def truthy : Value → Bool
  | null => false
  | bool b => b
  | int n => n != 0
  | float x => x != 0
  | text s => !s.isEmpty
  | bytes data => !data.isEmpty
  | date _ | moment _ | pair _ _ => true
  | list items => !items.isEmpty
  | map entries => !entries.isEmpty
  | set items => !items.isEmpty

def isNull : Value → Bool
  | null => true
  | _ => false

def isText : Value → Bool
  | text _ => true
  | _ => false

/-- A whole number equals a double when the double is exactly that number. -/
def intSameFloat (n : Int) (x : Float) : Bool :=
  match Decimal.Binary.ofFloat x with
  | .finite negative m e =>
    let (num, den) := Decimal.ratio m e
    (if negative then -(num : Int) else num) == n * den
  | _ => false

mutual

/-- Equality of values. The order of entries does not count in mappings and sets. -/
def same : Value → Value → Bool
  | null, null => true
  | bool a, bool b => a == b
  | bool a, int n => (if a then 1 else 0) == n
  | int n, bool b => n == (if b then 1 else 0)
  | int a, int b => a == b
  | bool a, float x | float x, bool a => intSameFloat (if a then 1 else 0) x
  | int n, float x | float x, int n => intSameFloat n x
  | float x, float y => x == y
  | text a, text b => a == b
  | bytes a, bytes b => a == b
  | date a, date b => a == b
  | moment a, moment b => a.same b
  | list xs, list ys => sameItems xs ys
  | pair a b, pair c d => same a c && same b d
  | map es, map fs => es.length == fs.length && entriesIn es fs
  | set xs, set ys => xs.length == ys.length && itemsIn xs ys
  | _, _ => false
termination_by structural v => v

/-- Equality of two lists, item by item. -/
def sameItems : List Value → List Value → Bool
  | [], [] => true
  | x :: xs, y :: ys => same x y && sameItems xs ys
  | _, _ => false
termination_by structural xs => xs

/-- Whether every item is in the second list. -/
def itemsIn : List Value → List Value → Bool
  | [], _ => true
  | x :: xs, ys => ys.any (fun y => same x y) && itemsIn xs ys
termination_by structural xs => xs

/-- Whether every entry is among the second ones. -/
def entriesIn : List (Value × Value) → List (Value × Value) → Bool
  | [], _ => true
  | (k, v) :: es, fs => fs.any (fun f => same k f.1 && same v f.2) && entriesIn es fs
termination_by structural es => es

end

/-- The value of a key among the entries of a mapping. -/
def lookup (entries : List (Value × Value)) (key : Value) : Option Value :=
  (entries.find? fun e => same e.1 key).map (·.2)

/-- The value of a named field; absent in anything but a mapping. -/
def field? : Value → String → Option Value
  | map entries, key => lookup entries (text key)
  | _, _ => none

/-- The value of a named field, null when there is none. -/
def field (v : Value) (key : String) : Value :=
  (v.field? key).getD null

/-- Sets a key in its place, or adds it at the end. The key that came first stays. -/
def putEntry : List (Value × Value) → Value → Value → List (Value × Value)
  | [], key, value => [(key, value)]
  | (k, v) :: rest, key, value =>
    if same k key then (k, value) :: rest else (k, v) :: putEntry rest key value

/-- A mapping with named fields. -/
def record (fields : Table Value) : Value :=
  map (fields.map fun f => (text f.1, f.2))

/-- The value itself if it is present, null otherwise. -/
def ofOption {α : Type} (f : α → Value) : Option α → Value
  | some a => f a
  | none => null

/-- A list of texts. -/
def texts (items : List String) : Value :=
  list (items.map text)

/-- Whether a value may be a key of a mapping. -/
def isKey : Value → Bool
  | list _ | map _ | set _ => false
  | _ => true

end Value

/-!
## What a value says

Where a text, a number or a list is expected a value of that kind says what it is. A value of
another kind says nothing, and a default takes its place.
-/

namespace Value

/-- The text of a value that is one. -/
def text? : Value → Option String
  | text s => some s
  | _ => none

def textOr (default : String) (v : Value) : String :=
  v.text?.getD default

/-- The number of a value that is a whole number. -/
def whole? : Value → Option Int
  | int n => some n
  | _ => none

def wholeOr (default : Int) (v : Value) : Int :=
  v.whole?.getD default

/-- A natural number; no number is below zero. -/
def natural (v : Value) : Nat :=
  (v.wholeOr 0).toNat

/-- The number of a value that is one. -/
def floatOr (default : Float) : Value → Float
  | float x => x
  | int n => Float.ofInt n
  | _ => default

/-- The truth value of a value that is one. -/
def boolOr (default : Bool) : Value → Bool
  | bool b => b
  | _ => default

/-- What is not null. -/
def present? : Value → Option Value
  | null => none
  | v => some v

/-- The items of a list. -/
def listed : Value → List Value
  | list items => items
  | _ => []

/-- The texts of a list of texts. -/
def listedTexts (v : Value) : List String :=
  v.listed.map (textOr "")

/-- The entries of a mapping, by their names. -/
def table : Value → Table Value
  | map entries => entries.map fun (key, v) => (key.textOr "", v)
  | _ => []

/-- A part of a description, or what it was where the description has none. -/
def part {α : Type} (v : Value) (name : String) (read : Value → α) (old : α) : α :=
  ((v.field? name).map read).getD old

end Value

end BrowserFlow
