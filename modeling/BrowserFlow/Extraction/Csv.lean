import BrowserFlow.Failure
import BrowserFlow.Text.CharClass
import BrowserFlow.Value.Literal

/-!
# Tables of comma-separated values

A table is written row by row, with commas between the cells and a line feed after each row. A
cell is quoted if it holds a comma, a quote or a line feed, with every quote in it doubled. A
single empty cell is quoted too, since otherwise the row would look empty.
-/

namespace BrowserFlow.Csv

/-- Whether a cell has to be quoted. -/
def needsQuotes (cs : List Char) : Bool :=
  cs.any fun c => c = ',' || c = '"' || c = '\n'

/-- The inside of a quoted cell. -/
def doubled (cs : List Char) : List Char :=
  cs.flatMap fun c => if c = '"' then ['"', '"'] else [c]

/-- A cell as it is written. -/
def cell (cs : List Char) : List Char :=
  if needsQuotes cs then '"' :: doubled cs ++ ['"'] else cs

/-- A row with the line feed after it. -/
def row : List (List Char) → List Char
  | [[]] => ['"', '"', '\n']
  | cells => [','].intercalate (cells.map cell) ++ ['\n']

/-- The text of a value in a cell; null leaves it empty. -/
def cellText : Value → String
  | .null => ""
  | v => v.plainText

/-- The rows for some items. If the first of them is an object its keys head the table, and every
item has its values for them in a row; an item that is no object stands in each cell of its row.
Otherwise every item has a row of one cell. -/
def rows : List Value → List (List String)
  | [] => []
  | .map entries :: rest =>
    let keys := entries.map (·.1)
    let rowOf := fun item : Value =>
      keys.map fun key =>
        match item with
        | .map es => cellText ((Value.lookup es key).getD (.text ""))
        | v => cellText v
    keys.map cellText :: (.map entries :: rest).map rowOf
  | items => items.map fun item => [cellText item]

/-- The table of some items, without the line feeds at its end. -/
def table (items : List Value) : String :=
  let cs := (rows items).flatMap fun r => row (r.map String.toList)
  String.ofList (Text.dropEndWhile (· = '\n') cs)

/-- The table of a list; nothing else has one. -/
def ofValue : Value → Except Fault String
  | .list items => .ok (table items)
  | _ => .error (.invalid "CSV 格式需要数组数据")

end BrowserFlow.Csv
