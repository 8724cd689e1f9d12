import BrowserFlow.Text.Case
import BrowserFlow.Text.Scan

/-!
# What an instruction asks for

Keywords decide whether an instruction asks for data, whether it asks for many items, and in
which format the data is to be kept.
-/

namespace BrowserFlow.Intent

/-- The keywords of a classification. -/
structure Keywords where
  extraction : List String := ["extract", "scrape", "grab", "get", "collect", "list", "fetch"]
  bulk : List String := ["all", "every", "each", "list", "many", "multiple", "top"]

/-- A small Latin letter. -/
def isLetter (c : Char) : Bool :=
  'a' ≤ c && c ≤ 'z'

/-- A run of letters at the front. -/
def word? (cs : List Char) : Option (String × Nat) :=
  let run := cs.takeWhile isLetter
  if run.isEmpty then none else some (String.ofList run, run.length)

/-- The runs of letters of an instruction in lower case. -/
def words (intent : String) : List String :=
  Text.findAll word? (Text.lower intent)

/-- Whether the instruction asks for data. -/
def isExtraction (k : Keywords) (intent : String) : Bool :=
  (words intent).any k.extraction.contains

/-- Whether the instruction asks for many items. -/
def isBulk (k : Keywords) (intent : String) : Bool :=
  (words intent).any k.bulk.contains

end Intent

/-- The formats in which extracted data is kept. -/
inductive DataFormat
  | json
  | csv
  | text
  deriving Repr, DecidableEq, Inhabited

namespace DataFormat

/-- The name of a format, which is also the extension of its files. -/
def name : DataFormat → String
  | json => "json"
  | csv => "csv"
  | text => "text"

/-- The format of that name. -/
def ofName? (s : String) : Option DataFormat :=
  [json, csv, text].find? fun f => f.name == s

/-- The format that an instruction asks for by a whole word. -/
def detect (instruction : String) : DataFormat :=
  let lowered := Text.lower instruction
  if Text.includesWord lowered ["csv", "spreadsheet", "excel"] then csv
  else if Text.includesWord lowered ["text", "plain", "list"] then text
  else json

end DataFormat

end BrowserFlow
