import BrowserFlow.Extraction.Csv
import BrowserFlow.Proofs.Text.Lines

/-!
# Tables are read back

A reader of tables goes over the characters one by one. It knows whether it stands at the beginning
of a row or of a cell, in a cell, between quotes or behind a quote, and what it has read (`Reader`).
Line feeds end rows only outside of quotes.

A cell that is written and a comma complete one cell (`read_cell`), and a row that is written
completes one row (`read_row`), whatever the cells hold. Of the table the last line feed is missing,
and no other, since no row that is written ends in a second one (`exists_body`). So the rows that
are read are those that were written (`read_written`), as long as there is a cell in every row.
-/

namespace BrowserFlow.Csv

/-! ## Reading -/

/-- Where a reader stands. -/
inductive Stand
  | fresh
  /-- Behind a comma. -/
  | opened
  | bare
  | quoted
  /-- Behind a quote between quotes: the other of two, or the end of the quoted part. -/
  | closed
  deriving DecidableEq

/-- What a reader has read: whole rows, whole cells of the next row, and the beginning of the next
cell. -/
structure Reader where
  stand : Stand := .fresh
  cell : List Char := []
  cells : List (List Char) := []
  rows : List (List (List Char)) := []

namespace Reader

def endCell (r : Reader) : Reader :=
  { r with stand := .opened, cell := [], cells := r.cells ++ [r.cell] }

def endRow (r : Reader) : Reader :=
  { rows := r.rows ++ [r.cells ++ [r.cell]] }

def put (r : Reader) (stand : Stand) (c : Char) : Reader :=
  { r with stand, cell := r.cell ++ [c] }

/-- Reads a character outside of quotes that opens none. -/
def outside (r : Reader) (c : Char) : Reader :=
  if c = ',' then r.endCell else if c = '\n' then r.endRow else r.put .bare c

/-- Reads a character. A line feed at the beginning of a row makes it a row without cells. -/
def step (r : Reader) (c : Char) : Reader :=
  match r.stand with
  | .fresh =>
    if c = '\n' then { r with rows := r.rows ++ [[]] }
    else if c = '"' then { r with stand := .quoted } else r.outside c
  | .opened => if c = '"' then { r with stand := .quoted } else r.outside c
  | .bare => r.outside c
  | .quoted => if c = '"' then { r with stand := .closed } else r.put .quoted c
  | .closed => if c = '"' then r.put .quoted c else r.outside c

/-- The rows at the end of the text. What has been begun is complete then. -/
def finish (r : Reader) : List (List (List Char)) :=
  match r.stand with
  | .fresh => r.rows
  | _ => r.endRow.rows

end Reader

/-- The rows of the table in a text. -/
def read (text : String) : List (List String) :=
  (text.toList.foldl Reader.step {}).finish.map fun cells => cells.map String.ofList

/-! ## Cells -/

variable {cs : List Char} {cells : List (List Char)} {done : List (List (List Char))}
  {stand : Stand}

/-- Doubled quotes are read as one. -/
theorem read_doubled (cs front : List Char) :
    (doubled cs).foldl Reader.step ⟨.quoted, front, cells, done⟩ =
      ⟨.quoted, front ++ cs, cells, done⟩ := by
  induction cs generalizing front with
  | nil => rw [List.append_nil]; rfl
  | cons c cs ih =>
    have hc :
        (if c = '"' then ['"', '"'] else [c]).foldl Reader.step ⟨.quoted, front, cells, done⟩ =
          ⟨.quoted, front ++ [c], cells, done⟩ := by
      by_cases h : c = '"'
      · subst h
        rfl
      · simp [h, Reader.step, Reader.put]
    rw [doubled, List.flatMap_cons, List.foldl_append, hc]
    refine (ih _).trans ?_
    rw [List.append_assoc, List.singleton_append]

/-- What needs no quotes is read as it stands. -/
theorem read_bare (h : needsQuotes cs = false) (front : List Char) :
    cs.foldl Reader.step ⟨.bare, front, cells, done⟩ = ⟨.bare, front ++ cs, cells, done⟩ := by
  induction cs generalizing front with
  | nil => rw [List.append_nil]; rfl
  | cons c cs ih =>
    simp only [needsQuotes, List.any_cons, Bool.or_eq_false_iff, decide_eq_false_iff_not] at h
    obtain ⟨⟨⟨hcomma, -⟩, hfeed⟩, hcs⟩ := h
    have hc : Reader.step ⟨.bare, front, cells, done⟩ c = ⟨.bare, front ++ [c], cells, done⟩ := by
      simp [Reader.step, Reader.outside, Reader.put, hcomma, hfeed]
    rw [List.foldl_cons, hc]
    refine (ih (by simpa [needsQuotes] using hcs) _).trans ?_
    rw [List.append_assoc, List.singleton_append]

/-- Where a reader stands behind a cell that is written. -/
def standBehind (stand : Stand) (cs : List Char) : Stand :=
  if needsQuotes cs then .closed else if cs = [] then stand else .bare

/-- A cell that is written is read back. -/
theorem read_cell_from (hstand : stand = .fresh ∨ stand = .opened) (cs : List Char) :
    (cell cs).foldl Reader.step ⟨stand, [], cells, done⟩ =
      ⟨standBehind stand cs, cs, cells, done⟩ := by
  unfold cell standBehind
  cases hquotes : needsQuotes cs with
  | true =>
    have hopen : Reader.step ⟨stand, [], cells, done⟩ '"' = ⟨.quoted, [], cells, done⟩ := by
      rcases hstand with rfl | rfl <;> rfl
    rw [if_pos rfl, if_pos rfl, List.cons_append, List.foldl_cons, hopen, List.foldl_append,
      read_doubled]
    rfl
  | false =>
    rw [if_neg (by decide), if_neg (by decide)]
    cases cs with
    | nil => rfl
    | cons c cs =>
      simp only [needsQuotes, List.any_cons, Bool.or_eq_false_iff, decide_eq_false_iff_not]
        at hquotes
      obtain ⟨⟨⟨hcomma, hquote⟩, hfeed⟩, hcs⟩ := hquotes
      have hc : Reader.step ⟨stand, [], cells, done⟩ c = ⟨.bare, [c], cells, done⟩ := by
        rcases hstand with rfl | rfl <;>
          simp [Reader.step, Reader.outside, Reader.put, hcomma, hquote, hfeed]
      rw [List.foldl_cons, hc, read_bare (by simpa [needsQuotes] using hcs), if_neg (by simp)]
      rfl

/-- With the comma behind it a cell that is written completes one cell. -/
theorem read_cell (hstand : stand = .fresh ∨ stand = .opened) (cs : List Char) :
    (cell cs ++ [',']).foldl Reader.step ⟨stand, [], cells, done⟩ =
      ⟨.opened, [], cells ++ [cs], done⟩ := by
  rw [List.foldl_append, read_cell_from hstand, standBehind]
  split
  · rfl
  · split
    · rcases hstand with rfl | rfl <;> rfl
    · rfl

/-! ## Rows -/

/-- The cells of a row are read one after the other. An empty cell is none at the beginning of a
row. -/
theorem read_cells (hcells : cells ≠ [])
    (hstand : stand = .opened ∨ stand = .fresh ∧ cells ≠ [[]]) (front : List (List Char)) :
    ([','].intercalate (cells.map cell) ++ ['\n']).foldl Reader.step ⟨stand, [], front, done⟩ =
      ⟨.fresh, [], [], done ++ [front ++ cells]⟩ := by
  induction cells generalizing stand front with
  | nil => exact absurd rfl hcells
  | cons first rest ih =>
    have hplace : stand = .fresh ∨ stand = .opened := (hstand.imp_right And.left).symm
    cases rest with
    | nil =>
      rw [List.map_singleton, List.intercalate_singleton, List.foldl_append,
        read_cell_from hplace, standBehind]
      split
      · rfl
      · split
        · rename_i hempty
          obtain rfl : stand = .opened :=
            hstand.resolve_right fun h => h.2 (congrArg (fun cs => [cs]) hempty)
          rfl
        · rfl
    | cons second rest =>
      have hlater := ih (List.cons_ne_nil second rest) (Or.inl rfl) (front ++ [first])
      rw [List.append_assoc, List.singleton_append] at hlater
      rw [List.map_cons, List.map_cons, List.intercalate_cons_cons, List.append_assoc,
        List.foldl_append, read_cell hplace, ← List.map_cons]
      exact hlater

/-- A row that is written is read back. -/
theorem read_row (hcells : cells ≠ []) :
    (row cells).foldl Reader.step ⟨.fresh, [], [], done⟩ = ⟨.fresh, [], [], done ++ [cells]⟩ := by
  by_cases hempty : cells = [[]]
  · subst hempty
    rfl
  · rw [row]
    · exact read_cells hcells (Or.inr ⟨rfl, hempty⟩) []
    · exact hempty

theorem read_rows {written : List (List (List Char))} (hwritten : ∀ cells ∈ written, cells ≠ [])
    (done : List (List (List Char))) :
    (written.flatMap row).foldl Reader.step ⟨.fresh, [], [], done⟩ =
      ⟨.fresh, [], [], done ++ written⟩ := by
  induction written generalizing done with
  | nil => rw [List.append_nil]; rfl
  | cons cells rest ih =>
    rw [List.flatMap_cons, List.foldl_append, read_row (hwritten cells List.mem_cons_self),
      ih fun cells h => hwritten cells (List.mem_cons_of_mem _ h), List.append_assoc,
      List.singleton_append]

/-! ## The end of the table -/

/-- The line feed is the last character of a cell that is written only in quotes. -/
theorem getLast?_cell (cs : List Char) : ∀ c, (cell cs).getLast? = some c → c ≠ '\n' := by
  intro c hlast
  unfold cell at hlast
  split at hlast
  · rw [List.getLast?_append] at hlast
    cases hlast
    decide
  · rename_i hquotes
    rintro rfl
    refine hquotes (List.any_eq_true.2 ⟨'\n', List.mem_of_getLast? hlast, by decide⟩)

/-- The cells of a row end in no line feed of their own. -/
theorem getLast?_cells (cells : List (List Char)) :
    ∀ c, ([','].intercalate (cells.map cell)).getLast? = some c → c ≠ '\n' := by
  intro c hlast
  induction cells with
  | nil => cases hlast
  | cons first rest ih =>
    cases rest with
    | nil =>
      rw [List.map_singleton, List.intercalate_singleton] at hlast
      exact getLast?_cell first c hlast
    | cons second rest =>
      rw [List.map_cons, List.map_cons, List.intercalate_cons_cons, ← List.map_cons,
        List.getLast?_append, List.getLast?_append] at hlast
      cases hrest : ([','].intercalate ((second :: rest).map cell)).getLast? with
      | some d =>
        rw [hrest] at hlast ih
        exact ih hlast
      | none =>
        rw [hrest] at hlast
        cases hlast
        decide

/-- A row that is written ends in one line feed, and does not consist of it alone. -/
theorem exists_body (hcells : cells ≠ []) :
    ∃ body, row cells = body ++ ['\n'] ∧ body ≠ [] ∧ ∀ c, body.getLast? = some c → c ≠ '\n' := by
  by_cases hempty : cells = [[]]
  · subst hempty
    refine ⟨['"', '"'], rfl, by decide, ?_⟩
    rintro c ⟨⟩
    decide
  · refine ⟨[','].intercalate (cells.map cell), by rw [row]; exact hempty, ?_, getLast?_cells cells⟩
    cases cells with
    | nil => exact absurd rfl hcells
    | cons first rest =>
      cases rest with
      | nil =>
        rw [List.map_singleton, List.intercalate_singleton]
        unfold cell
        split
        · exact List.append_ne_nil_of_right_ne_nil _ (List.cons_ne_nil _ _)
        · exact fun h => hempty (congrArg (fun cs => [cs]) h)
      | cons second rest =>
        rw [List.map_cons, List.map_cons, List.intercalate_cons_cons]
        refine List.append_ne_nil_of_left_ne_nil ?_ _
        exact List.append_ne_nil_of_right_ne_nil _ (List.cons_ne_nil _ _)

/-- What a line feed would complete to a row with cells is complete at the end of the text. -/
theorem finish_of_step {r : Reader}
    (h : r.step '\n' = ⟨.fresh, [], [], done ++ [cells]⟩) (hcells : cells ≠ []) :
    r.finish = done ++ [cells] := by
  obtain ⟨stand, front, before, rows⟩ := r
  have hrows := congrArg Reader.rows h
  cases stand with
  | fresh =>
    -- the line feed has completed a row without cells
    have hlast : rows ++ [[]] = done ++ [cells] := hrows
    exact absurd (List.append_inj_right' hlast rfl) (by simpa using hcells.symm)
  | quoted => cases congrArg Reader.stand h
  | opened => exact hrows
  | bare => exact hrows
  | closed => exact hrows

/-- Rows with cells in each of them are read back, though the last line feed is missing. -/
theorem read_written {written : List (List (List Char))}
    (hwritten : ∀ cells ∈ written, cells ≠ []) :
    ((Text.dropEndWhile (· = '\n') (written.flatMap row)).foldl Reader.step {}).finish =
      written := by
  rcases List.eq_nil_or_concat written with rfl | ⟨before, last, rfl⟩
  · rfl
  · have hlast : last ≠ [] := hwritten last (by simp)
    obtain ⟨body, hrow, hbody, hend⟩ := exists_body hlast
    have htext : (before.concat last).flatMap row = before.flatMap row ++ body ++ ['\n'] := by
      rw [List.concat_eq_append, List.flatMap_append, List.flatMap_singleton, hrow,
        List.append_assoc]
    have hread := read_rows hwritten []
    rw [htext, List.foldl_append] at hread
    rw [htext, Text.dropEndWhile_append (by simp) ?_]
    · rw [List.concat_eq_append, List.nil_append] at hread
      rw [List.concat_eq_append]
      exact finish_of_step hread hlast
    · intro c hc
      rw [List.getLast?_append_of_ne_nil _ hbody] at hc
      simpa using hend c hc

/-! ## Tables -/

/-- Rows with cells in each of them are read back from their table. -/
theorem read_table {items : List Value} (h : ∀ cells ∈ rows items, cells ≠ []) :
    read (table items) = rows items := by
  have htext : (table items).toList = Text.dropEndWhile (· = '\n')
      (((rows items).map fun cells => cells.map String.toList).flatMap row) := by
    rw [table, String.toList_ofList, List.flatMap_map]
  unfold read
  rw [htext, read_written, List.map_map]
  · have hcells : ∀ cells : List String, (cells.map String.toList).map String.ofList = cells := by
      intro cells
      rw [List.map_map]
      exact List.map_id'' (fun s => String.ofList_toList) cells
    exact List.map_id'' hcells (rows items)
  · intro cells hcells
    obtain ⟨cells, hmem, rfl⟩ := List.mem_map.1 hcells
    exact fun hempty => h cells hmem (List.map_eq_nil_iff.1 hempty)

/-- The cell of an item under a key: its value, if it has one, or the item itself where it is no
object. -/
def cellUnder (key : Value) : Value → String
  | .map entries => ((Value.lookup entries key).map cellText).getD ""
  | item => cellText item

theorem rows_cons_map (entries : List (Value × Value)) (rest : List Value) :
    rows (.map entries :: rest) = entries.map (fun e => cellText e.1) ::
      (.map entries :: rest).map fun item => entries.map fun e => cellUnder e.1 item := by
  unfold rows
  dsimp only
  rw [List.map_map]
  refine congrArg (_ :: ·) (List.map_congr_left fun item _ => ?_)
  rw [List.map_map]
  refine List.map_congr_left fun e _ => ?_
  cases item with
  | map es =>
    simp only [Function.comp_apply, cellUnder]
    cases Value.lookup es e.1 with
    | none => rfl
    | some v => rfl
  | _ => rfl

theorem rows_cons {first : Value} (hfirst : ∀ entries, first ≠ .map entries) (rest : List Value) :
    rows (first :: rest) = (first :: rest).map fun item => [cellText item] := by
  cases first with
  | map entries => exact absurd rfl (hfirst entries)
  | _ => rfl

/-- A list is written as a table that a reader takes apart again, unless its first item is an object
without keys. If the first item is an object its keys are the first row, and in each of the others
an item has its cells under these keys. Otherwise each item is the only cell of a row. -/
theorem read_ofValue {first : Value} (hfirst : first ≠ .map []) (rest : List Value) :
    ∃ text, ofValue (.list (first :: rest)) = .ok text ∧
      (∀ entries, first = .map entries →
        read text = entries.map (fun e => cellText e.1) ::
          (first :: rest).map fun item => entries.map fun e => cellUnder e.1 item) ∧
      ((∀ entries, first ≠ .map entries) →
        read text = (first :: rest).map fun item => [cellText item]) := by
  refine ⟨table (first :: rest), rfl, ?_, ?_⟩
  · rintro entries rfl
    have hcells : ∀ f : Value × Value → String, entries.map f ≠ [] := fun f h =>
      hfirst (congrArg Value.map (List.map_eq_nil_iff.1 h))
    rw [← rows_cons_map]
    refine read_table fun cells hmem => ?_
    rw [rows_cons_map] at hmem
    rcases List.mem_cons.1 hmem with rfl | hmem
    · exact hcells _
    · obtain ⟨item, -, rfl⟩ := List.mem_map.1 hmem
      exact hcells _
  · intro hplain
    rw [← rows_cons hplain]
    refine read_table fun cells hmem => ?_
    rw [rows_cons hplain] at hmem
    obtain ⟨item, -, rfl⟩ := List.mem_map.1 hmem
    exact List.cons_ne_nil _ _

/-- Commas, quotes and line feeds in the cells make no difference, and neither do empty cells. -/
theorem read_ofValue_letters :
    (Value.map [(.text "a,b", .text "\"x\"\n"), (.text "", .null)]) ≠ .map [] ∧
      ∃ text, ofValue (.list [.map [(.text "a,b", .text "\"x\"\n"), (.text "", .null)],
          .map [(.text "", .text "\n\n")], .int 7]) = .ok text ∧
        read text = [["a,b", ""], ["\"x\"\n", ""], ["", "\n\n"], ["7", "7"]] := by
  have hfirst : (Value.map [(.text "a,b", .text "\"x\"\n"), (.text "", .null)]) ≠ .map [] :=
    fun h => by cases h
  obtain ⟨text, htext, hread, -⟩ := read_ofValue hfirst [.map [(.text "", .text "\n\n")], .int 7]
  refine ⟨hfirst, text, htext, (hread _ rfl).trans ?_⟩
  decide +kernel

/-- Under no keys there are only rows without cells, and these are lost. -/
theorem read_table_bare (rest : List Value) : read (table (.map [] :: rest)) = [] := by
  have hfeeds : ∀ c ∈ (rows (.map [] :: rest)).flatMap fun r => row (r.map String.toList),
      decide (c = '\n') = true := by
    intro c hc
    obtain ⟨cells, hmem, hc⟩ := List.mem_flatMap.1 hc
    obtain rfl : cells = [] := by
      rw [rows_cons_map] at hmem
      rcases List.mem_cons.1 hmem with rfl | hmem
      · rfl
      · obtain ⟨item, -, rfl⟩ := List.mem_map.1 hmem
        rfl
    exact decide_eq_true (List.mem_singleton.1 hc)
  have hnone := Text.dropEndWhile_append hfeeds fun c (h : [].getLast? = some c) => nomatch h
  rw [List.nil_append] at hnone
  unfold read table
  dsimp only
  rw [hnone]
  rfl

end BrowserFlow.Csv
