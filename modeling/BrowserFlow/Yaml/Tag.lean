import BrowserFlow.Text.CharClass

/-!
# Kinds of nodes

Every node of a document has a tag that tells its kind. A plain scalar without a tag gets its kind
from its form: `yes` is a truth value, `0x1F` and `1:30` are whole numbers, `2024-01-01` is a date.
The forms are those of YAML 1.1.
-/

namespace BrowserFlow.Yaml

inductive Tag
  | null
  | bool
  | int
  | float
  | binary
  | timestamp
  | omap
  | pairs
  | set
  | str
  | seq
  | map
  | merge
  | value
  | other (name : String)
  deriving Repr, DecidableEq, Inhabited

namespace Tag

/-- What the short handle `!!` stands for. -/
def core : String := "tag:yaml.org,2002:"

/-- The short names of the tags. -/
def shortName : Tag → String
  | null => "null"
  | bool => "bool"
  | int => "int"
  | float => "float"
  | binary => "binary"
  | timestamp => "timestamp"
  | omap => "omap"
  | pairs => "pairs"
  | set => "set"
  | str => "str"
  | seq => "seq"
  | map => "map"
  | merge => "merge"
  | value => "value"
  | other name => name

/-- The tags that have a meaning of their own. -/
def known : List Tag :=
  [null, bool, int, float, binary, timestamp, omap, pairs, set, str, seq, map, merge, value]

/-- The tag of a full name. -/
def ofName (name : String) : Tag :=
  (known.find? fun t => core ++ t.shortName == name).getD (other name)

end Tag

/-! ## Forms of scalars

Each form is a recogniser of characters that must match all of them. -/

namespace Form

def isDigit (c : Char) : Bool :=
  '0' ≤ c && c ≤ '9'

/-- A digit or an underscore. -/
def isDigitOrBar (c : Char) : Bool :=
  isDigit c || c = '_'

/-- Without an optional sign. -/
def unsigned : List Char → List Char
  | c :: cs => if c = '-' || c = '+' then cs else c :: cs
  | [] => []

/-- A colon with one digit, or with two of which the first is below six. Gives what follows. -/
def sixtieth? : List Char → Option (List Char)
  | ':' :: a :: b :: rest =>
    if '0' ≤ a && a ≤ '5' && isDigit b then some rest
    else if isDigit a then some (b :: rest)
    else none
  | [':', a] => if isDigit a then some [] else none
  | _ => none

/-- Groups of sixtieths; gives what follows the last. -/
def sixtieths : (fuel : Nat) → List Char → List Char
  | 0, cs => cs
  | fuel + 1, cs =>
    match sixtieth? cs with
    | some rest => sixtieths fuel rest
    | none => cs

/-- Whether some characters are one or more groups of sixtieths and then satisfy `p`. -/
def sixtiethsThen (p : List Char → Bool) (cs : List Char) : Bool :=
  match sixtieth? cs with
  | some rest => p (sixtieths rest.length rest)
  | none => false

/-- Not empty, and made of characters that satisfy `p`. -/
def some? (p : Char → Bool) (cs : List Char) : Bool :=
  !cs.isEmpty && cs.all p

/-- A whole number: binary, octal, decimal, hexadecimal or in base sixty. -/
def isInt (cs : List Char) : Bool :=
  match unsigned cs with
  | '0' :: 'b' :: rest => some? (fun c => c = '0' || c = '1' || c = '_') rest
  | '0' :: 'x' :: rest =>
    some? (fun c => isDigit c || c = '_' || ('a' ≤ c && c ≤ 'f') || ('A' ≤ c && c ≤ 'F')) rest
  | '0' :: rest => rest.all fun c => ('0' ≤ c && c ≤ '7') || c = '_'
  | c :: rest =>
    isDigit c &&
      (rest.all isDigitOrBar || sixtiethsThen List.isEmpty (rest.dropWhile isDigitOrBar))
  | [] => false

/-- Nothing, or an exponent with its sign. -/
def isExponent : List Char → Bool
  | [] => true
  | e :: s :: rest => (e = 'e' || e = 'E') && (s = '-' || s = '+') && some? isDigit rest
  | _ => false

/-- A point, digits and an optional exponent. -/
def isFraction : List Char → Bool
  | '.' :: rest => isExponent (rest.dropWhile isDigitOrBar)
  | _ => false

/-- A double: with a point, in base sixty with a point, or one of the words. -/
def isFloat (cs : List Char) : Bool :=
  let body := unsigned cs
  let words := fun ws : List String => fun x : List Char => ws.any fun w => w.toList = x
  words [".inf", ".Inf", ".INF"] body || words [".nan", ".NaN", ".NAN"] cs ||
    match cs, body with
    | '.' :: c :: rest, _ => isDigit c && isExponent (rest.dropWhile isDigitOrBar)
    | _, c :: rest =>
      isDigit c &&
        (isFraction (rest.dropWhile isDigitOrBar) ||
          sixtiethsThen (fun r => match r with
            | '.' :: more => more.all isDigitOrBar
            | _ => false) (rest.dropWhile isDigitOrBar))
    | _, _ => false

def isBool (s : String) : Bool :=
  ["yes", "Yes", "YES", "no", "No", "NO", "true", "True", "TRUE", "false", "False", "FALSE",
    "on", "On", "ON", "off", "Off", "OFF"].contains s

def isNull (s : String) : Bool :=
  ["", "~", "null", "Null", "NULL"].contains s

/-- The fields of a date or a moment, as they are spelled. -/
structure MomentText where
  year : List Char
  month : List Char
  day : List Char
  time : Option (List Char × List Char × List Char) := none
  /-- The digits after the point of the seconds. -/
  fraction : List Char := []
  /-- `Z`, or a sign with hours and minutes. -/
  zone : Option (Option (Bool × List Char × List Char)) := none

/-- Digits at the front, between `least` and `most` of them. -/
def digits? (least most : Nat) (cs : List Char) : Option (List Char × List Char) :=
  let run := (cs.takeWhile isDigit).take most
  if run.length < least then none else some (run, cs.drop run.length)

/-- A character that has to stand at the front. -/
def expect? (c : Char) : List Char → Option (List Char)
  | x :: rest => if x = c then some rest else none
  | [] => none

def isSpaceOrTab (c : Char) : Bool :=
  c = ' ' || c = '\t'

/-- The hours, and optionally minutes, of an offset. -/
def offset? (cs : List Char) : Option (List Char × List Char) := do
  let (hours, rest) ← digits? 1 2 cs
  match rest with
  | [] => return (hours, [])
  | rest => do
    let (minutes, rest) ← digits? 2 2 (← expect? ':' rest)
    if rest.isEmpty then return (hours, minutes) else none

/-- The zone at the end of a moment, after optional blanks. -/
def zone? (cs : List Char) : Option (Option (Option (Bool × List Char × List Char))) :=
  match cs.dropWhile isSpaceOrTab with
  | [] => if cs.isEmpty then some none else none
  | ['Z'] => some (some none)
  | '-' :: rest => (offset? rest).map fun o => some (some (true, o))
  | '+' :: rest => (offset? rest).map fun o => some (some (false, o))
  | _ => none

/-- The time of day behind a date: after a `T` or blanks, hours, minutes and seconds. -/
def clock? (m : MomentText) (cs : List Char) : Option MomentText := do
  let rest ← match cs with
    | 'T' :: rest | 't' :: rest => some rest
    | c :: _ => if isSpaceOrTab c then some (cs.dropWhile isSpaceOrTab) else none
    | [] => none
  let (hour, rest) ← digits? 1 2 rest
  let (minute, rest) ← digits? 2 2 (← expect? ':' rest)
  let (second, rest) ← digits? 2 2 (← expect? ':' rest)
  let (fraction, rest) := match rest with
    | '.' :: rest => (rest.takeWhile isDigit, rest.dropWhile isDigit)
    | rest => ([], rest)
  let zone ← zone? rest
  return { m with time := some (hour, minute, second), fraction, zone }

/-- A date of four, one or two, and one or two digits, with an optional time. -/
def moment? (cs : List Char) : Option MomentText := do
  let (year, rest) ← digits? 4 4 cs
  let (month, rest) ← digits? 1 2 (← expect? '-' rest)
  let (day, rest) ← digits? 1 2 (← expect? '-' rest)
  let m : MomentText := { year, month, day }
  if rest.isEmpty then return m else clock? m rest

/-- A date is recognised by its form only with two digits for month and day; with a time one is
enough. -/
def isTimestamp (cs : List Char) : Bool :=
  match moment? cs with
  | some m => m.time.isSome || (m.month.length == 2 && m.day.length == 2)
  | none => false

end Form

/-- The kind of a plain scalar without a tag. -/
def Tag.ofForm (s : String) : Tag :=
  let cs := s.toList
  if Form.isBool s then bool
  else if Form.isFloat cs then float
  else if Form.isInt cs then int
  else if s = "<<" then merge
  else if Form.isNull s then null
  else if Form.isTimestamp cs then timestamp
  else if s = "=" then value
  else if s = "!" || s = "&" || s = "*" then other (core ++ "yaml")
  else str

end BrowserFlow.Yaml
