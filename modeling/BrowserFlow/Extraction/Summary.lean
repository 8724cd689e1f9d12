import BrowserFlow.Json.Text
import BrowserFlow.Report
import BrowserFlow.Text.CharClass
import BrowserFlow.Text.Scan

/-!
# What a script returned, in one line

The result of a script is summed up in one line: for a list the number of its items and the first
of them, for an object its beginning. The line is what is left of the result in a report, so the
number of items and the absence of any are read back from it.
-/

namespace BrowserFlow.Extraction

/-- The characters kept of a result. -/
def previewLength : Nat := 300

/-- The items of a list that are shown. -/
def previewItems : Nat := 5

/-- The line for a result. -/
def summary (result : Value) : String :=
  let preview := Text.clip previewLength
  match result with
  | .null => "Evaluated script - no data returned"
  | .list items =>
    s!"Extracted data ({items.length} items): " ++
      preview (Json.text .line (.list (items.take previewItems)))
  | .map (e :: es) => "Extracted data (object): " ++ preview (Json.text .line (.map (e :: es)))
  | .text s => "Evaluated script - result: " ++ preview s
  | v => "Evaluated script - result: " ++ preview (Json.text .asciiLine v)

/-- Whether a result is data: a list or an object that is not empty. -/
def isData : Value → Bool
  | .list items => !items.isEmpty
  | .map entries => !entries.isEmpty
  | _ => false

/-- The number of items named at the front, as in `(12 items)`. -/
def countHere? : List Char → Option Nat
  | '(' :: cs =>
    let digits := cs.takeWhile Text.isDecimal
    let rest := cs.dropWhile Text.isDecimal
    if !digits.isEmpty && " items)".toList.isPrefixOf rest then
      some (digits.foldl (fun n d => n * 10 + (Text.digitValue? d).getD 0) 0)
    else none
  | _ => none

/-- The number of items that a line names: the first number in it, or none for an empty list at
its end. -/
def found? (line : String) : Option Nat :=
  match Text.findFirst? countHere? line.toList with
  | some n => some n
  | none => if "[]".toList.isSuffixOf (Text.trimChars line.toList) then some 0 else none

/-- Whether a line tells of nothing found. -/
def isEmptyLine (line : String) : Bool :=
  Text.includesWord line ["0 items"] || Text.includes line "[]"

/-- Whether a script among the steps of a report returned nothing. -/
def isEmpty (r : Report) : Bool :=
  r.steps.any fun s => s.kind == "evaluate" && isEmptyLine (s.output.getD "")

/-- The characters of an output that are kept for the next instruction. -/
def snippetLength : Nat := 200

/-- What the last script that succeeded returned. -/
def snippet? (r : Report) : Option String :=
  let last := r.steps.reverse.find? fun s =>
    s.kind == "evaluate" && s.success && !(s.output.getD "").isEmpty
  (last.bind (·.output)).map (Text.clip snippetLength)

end BrowserFlow.Extraction
