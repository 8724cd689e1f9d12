import BrowserFlow.Extraction.Csv
import BrowserFlow.Extraction.Summary
import BrowserFlow.Intent

/-!
# Extracted data as text

Data is kept in one of three formats and shown in a shorter form. A table of values can only be
made from a list; other data is kept as JSON instead.
-/

namespace BrowserFlow.Extraction

/-- Whether an item takes more than a line. -/
def isCompound : Value → Bool
  | .list _ | .map _ => true
  | _ => false

/-- An item of a list as plain text, under its number. -/
def itemText (number : Nat) (item : Value) : String :=
  if isCompound item then s!"--- Item {number} ---\n" ++ Json.text .lines item
  else s!"{number}. " ++ item.plainText

/-- Data as plain text. -/
def plainText : Value → String
  | .text s => s
  | .list items => "\n\n".intercalate (items.zipIdx.map fun (item, i) => itemText (i + 1) item)
  | v => Json.text .lines v

/-- An item of a list as it is shown, after its place. -/
def shownItem (place : Nat) (item : Value) : String :=
  s!"[{place}] " ++ if isCompound item then Json.text .line item else item.plainText

/-- Data as it is shown: of a list only the first items. -/
def shown : Value → String
  | .text s => s
  | .list items =>
    let head := s!"Array with {items.length} items:"
    let first := (items.take previewItems).zipIdx.map fun (item, i) => shownItem i item
    let more := items.length - previewItems
    "\n".intercalate (head :: first ++ if more == 0 then [] else [s!"... and {more} more items"])
  | v => Json.text .lines v

/-- The format in which data is kept: the one that is asked for by name, or else the one that the
instruction asks for; a table only for a list. -/
def formatFor (instruction : Option String) (requested : Option String) (data : Value) :
    DataFormat :=
  let wanted := (requested.bind DataFormat.ofName?).getD
    (DataFormat.detect (instruction.getD ""))
  match wanted, data with
  | .csv, .list _ => .csv
  | .csv, _ => .json
  | other, _ => other

/-- What is kept of some data in a format, and what is shown of it. -/
def render (format : DataFormat) (data : Value) : String × String :=
  match format, Csv.ofValue data with
  | .csv, .ok t => (t, t)
  | .csv, .error _ | .json, _ => (Json.text .lines data, shown data)
  | .text, _ => let t := plainText data; (t, t)

end BrowserFlow.Extraction
