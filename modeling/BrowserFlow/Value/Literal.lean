import BrowserFlow.Decimal.Shortest
import BrowserFlow.Text.Quoted
import BrowserFlow.Value.Basic

/-!
# Values as text

Two ways to write a value. The literal form shows its structure: texts in quotes, lists in
brackets, mappings in braces. The plain form differs from it for texts, which stand for
themselves, and for dates, which are written as in ISO 8601.
-/

namespace BrowserFlow

/-- The literal form of a date. -/
def Date.literal (d : Date) : String :=
  "datetime.date(" ++ ", ".intercalate ([d.year, d.month, d.day].map toString) ++ ")"

/-- The fields of a time in a literal: seconds and microseconds only up to the last that is not
zero. -/
def TimeOfDay.fields (t : TimeOfDay) : List Nat :=
  if t.micro != 0 then [t.hour, t.minute, t.second, t.micro]
  else if t.second != 0 then [t.hour, t.minute, t.second]
  else [t.hour, t.minute]

/-- The literal form of an offset. -/
def offsetLiteral (minutes : Int) : String :=
  if minutes == 0 then "datetime.timezone.utc"
  else "datetime.timezone(" ++ durationText minutes ++ ")"

/-- The literal form of a moment. -/
def Moment.literal (m : Moment) : String :=
  let fields := [m.date.year, m.date.month, m.date.day] ++ m.time.fields
  let zone := match m.offset with
    | none => []
    | some minutes => ["tzinfo=" ++ offsetLiteral minutes]
  "datetime.datetime(" ++ ", ".intercalate (fields.map toString ++ zone) ++ ")"

namespace Value

mutual

/-- The literal form of a value. -/
def literal : Value → String
  | null => "None"
  | bool b => if b then "True" else "False"
  | int n => toString n
  | float x => Decimal.floatText x
  | text s => Text.quoted s
  | bytes data => Text.quotedBytes data
  | date d => d.literal
  | moment m => m.literal
  | list items => "[" ++ ", ".intercalate (literals items) ++ "]"
  | pair a b => "(" ++ literal a ++ ", " ++ literal b ++ ")"
  | map entries => "\x7b" ++ ", ".intercalate (entryLiterals entries) ++ "\x7d"
  | set items =>
    if items.isEmpty then "set()" else "\x7b" ++ ", ".intercalate (literals items) ++ "\x7d"
termination_by structural v => v

/-- The literal forms of the items of a list. -/
def literals : List Value → List String
  | [] => []
  | v :: vs => literal v :: literals vs
termination_by structural vs => vs

/-- The literal forms of the entries of a mapping. -/
def entryLiterals : List (Value × Value) → List String
  | [] => []
  | (k, v) :: es => (literal k ++ ": " ++ literal v) :: entryLiterals es
termination_by structural es => es

end

/-- The plain form of a value. -/
def plainText : Value → String
  | text s => s
  | date d => d.iso
  | moment m => m.iso " "
  | v => literal v

end Value

end BrowserFlow
