import BrowserFlow.Value.Literal

/-!
# Values as JSON text

Two layouts are in use: on one line, with a space after every comma and colon, and spread over
lines with an indent of two. A value that JSON does not know, such as a date, is written as the
text of its plain form where the writer allows it. Scalar keys become texts; a key of any other
kind has no JSON form.
-/

namespace BrowserFlow.Json

/-- How a JSON text is laid out and which characters it escapes. -/
structure Layout where
  /-- Every item on a line of its own, indented by its depth. -/
  spread : Bool
  /-- Every character beyond ASCII is escaped. -/
  ascii : Bool
  deriving Repr, DecidableEq

/-- On one line, with all characters as they are. -/
def Layout.line : Layout := ⟨false, false⟩

/-- Over several lines, with all characters as they are. -/
def Layout.lines : Layout := ⟨true, false⟩

/-- On one line, in ASCII. -/
def Layout.asciiLine : Layout := ⟨false, true⟩

/-- The escape of one unit of sixteen bits. -/
def unitEscape (n : Nat) : List Char :=
  '\\' :: 'u' :: Text.hexDigits 4 n

/-- The escape of a character; beyond the first plane it takes two units. -/
def charEscape (c : Char) : List Char :=
  let n := c.toNat
  if n < 0x10000 then unitEscape n
  else unitEscape (0xD800 + (n - 0x10000) / 0x400) ++ unitEscape (0xDC00 + (n - 0x10000) % 0x400)

/-- A character inside a JSON string. -/
def stringChar (ascii : Bool) (c : Char) : List Char :=
  if c = '"' then ['\\', '"']
  else if c = '\\' then ['\\', '\\']
  else if c = '\n' then ['\\', 'n']
  else if c = '\r' then ['\\', 'r']
  else if c = '\t' then ['\\', 't']
  else if c = '\x08' then ['\\', 'b']
  else if c = '\x0c' then ['\\', 'f']
  else if c.toNat < 0x20 || (ascii && 0x7E < c.toNat) then charEscape c
  else [c]

/-- A JSON string. -/
def stringText (ascii : Bool) (s : String) : String :=
  String.ofList ('"' :: s.toList.flatMap (stringChar ascii) ++ ['"'])

/-- A JSON number, or the words for what is not one. -/
def floatText (x : Float) : String :=
  match Decimal.Binary.ofFloat x with
  | .infinite negative => if negative then "-Infinity" else "Infinity"
  | .nan => "NaN"
  | _ => Decimal.floatText x

/-- The text of a scalar key. -/
def keyText : Value → String
  | .bool b => if b then "true" else "false"
  | .null => "null"
  | .float x => floatText x
  | v => v.plainText

/-- A new line, indented for the depth. -/
def newline (depth : Nat) : String :=
  String.ofList ('\n' :: List.replicate (2 * depth) ' ')

/-- Items between brackets. -/
def enclosed (layout : Layout) (depth : Nat) (left right : String) (items : List String) :
    String :=
  if items.isEmpty then left ++ right
  else if layout.spread then
    left ++ newline (depth + 1) ++ ("," ++ newline (depth + 1)).intercalate items ++
      newline depth ++ right
  else left ++ ", ".intercalate items ++ right

mutual

/-- The JSON text of a value at a depth. -/
def textAt (layout : Layout) (depth : Nat) : Value → String
  | .null => "null"
  | .bool b => if b then "true" else "false"
  | .int n => toString n
  | .float x => floatText x
  | .text s => stringText layout.ascii s
  | .list items => enclosed layout depth "[" "]" (itemTexts layout (depth + 1) items)
  | .pair a b =>
    enclosed layout depth "[" "]" [textAt layout (depth + 1) a, textAt layout (depth + 1) b]
  | .map entries =>
    enclosed layout depth "\x7b" "\x7d" (entryTexts layout (depth + 1) entries)
  | v => stringText layout.ascii v.plainText
termination_by structural v => v

def itemTexts (layout : Layout) (depth : Nat) : List Value → List String
  | [] => []
  | v :: vs => textAt layout depth v :: itemTexts layout depth vs
termination_by structural vs => vs

def entryTexts (layout : Layout) (depth : Nat) : List (Value × Value) → List String
  | [] => []
  | (k, v) :: es =>
    (stringText layout.ascii (keyText k) ++ ": " ++ textAt layout depth v) ::
      entryTexts layout depth es
termination_by structural es => es

end

/-- The JSON text of a value; what JSON does not know is written as text. -/
def text (layout : Layout) (v : Value) : String :=
  textAt layout 0 v

/-- Whether a value may stand as the key of a JSON object. -/
def isScalarKey : Value → Bool
  | .text _ | .int _ | .float _ | .bool _ | .null => true
  | _ => false

/-- Whether a value needs to be written as text because JSON does not know its kind. -/
def isForeign : Value → Bool
  | .bytes _ | .date _ | .moment _ | .set _ => true
  | _ => false

mutual

/-- Whether a value can be written: every key is a scalar and, unless they are allowed, no value
is of a kind that JSON does not know. -/
def writable (allowForeign : Bool) : Value → Bool
  | .list items => itemsWritable allowForeign items
  | .pair a b => writable allowForeign a && writable allowForeign b
  | .map entries => entriesWritable allowForeign entries
  | v => allowForeign || !isForeign v
termination_by structural v => v

def itemsWritable (allowForeign : Bool) : List Value → Bool
  | [] => true
  | v :: vs => writable allowForeign v && itemsWritable allowForeign vs
termination_by structural vs => vs

def entriesWritable (allowForeign : Bool) : List (Value × Value) → Bool
  | [] => true
  | (k, v) :: es =>
    isScalarKey k && writable allowForeign v && entriesWritable allowForeign es
termination_by structural es => es

end

mutual

/-- What reading back the JSON text of a value gives: texts for keys and for what JSON does not
know, lists for pairs, and one entry for each key. -/
def plain : Value → Value
  | .list items => .list (plainItems items)
  | .pair a b => .list [plain a, plain b]
  | .map entries => .map (plainEntries entries [])
  | v => if isForeign v then .text v.plainText else v
termination_by structural v => v

def plainItems : List Value → List Value
  | [] => []
  | v :: vs => plain v :: plainItems vs
termination_by structural vs => vs

/-- Puts the plain entries after those already `done`. -/
def plainEntries : List (Value × Value) → List (Value × Value) → List (Value × Value)
  | [], done => done
  | (k, v) :: es, done => plainEntries es (Value.putEntry done (.text (keyText k)) (plain v))
termination_by structural es => es

end

end BrowserFlow.Json
