import BrowserFlow.Yaml.Cursor

/-!
# Block scalars

A literal or folded scalar keeps the lines below its header that are indented by a common amount,
given in the header or taken from the first line that is not empty. The header also tells what
becomes of the line breaks at the end: one is kept, or all, or none.
-/

namespace BrowserFlow.Yaml.Block

/-- What becomes of the line breaks at the end. -/
inductive Chomping
  | clip
  | strip
  | keep
  deriving DecidableEq

/-- The mark of a chomping other than the usual one. -/
def chomping? : Char → Option Chomping
  | '+' => some .keep
  | '-' => some .strip
  | _ => none

/-- The value of an indentation indicator. -/
def increment? (c : Char) : Option Nat :=
  if '0' ≤ c && c ≤ '9' then some (c.toNat - '0'.toNat) else none

/-- The indicators behind the mark of a block scalar, in either order. -/
def header (c : Cursor) : Except Error (Chomping × Option Nat × Cursor) := do
  let (chomping, increment, c) :=
    match chomping? c.peek with
    | some k =>
      let c := c.next
      match increment? c.peek with
      | some n => (k, some n, c.next)
      | none => (k, none, c)
    | none =>
      match increment? c.peek with
      | some n =>
        let c := c.next
        match chomping? c.peek with
        | some k => (k, some n, c.next)
        | none => (.clip, some n, c)
      | none => (.clip, none, c)
  if increment = some 0 then throw .malformed
  if isSpaceOrEnd c.peek then return (chomping, increment, c) else throw .malformed

/-- The empty lines at the beginning, and the widest indentation among them and the first line
that is not empty. -/
def leading : (fuel : Nat) → (widest : Nat) → Cursor → List Char × Nat × Cursor
  | 0, widest, c => ([], widest, c)
  | fuel + 1, widest, c =>
    if c.peek = ' ' then
      let c := c.next
      leading fuel (max widest c.column) c
    else if isBreak c.peek then
      let (br, c) := c.lineBreak
      let (more, widest, c) := leading fuel widest c
      (br ++ more, widest, c)
    else ([], widest, c)

/-- Past the spaces of an indentation. -/
def skipIndent (indent : Nat) (c : Cursor) : Cursor :=
  c.skip (min (indent - c.column) (c.run (· = ' ')).length)

/-- The empty lines before the next line of the scalar. -/
def emptyLines (indent : Nat) : (fuel : Nat) → Cursor → List Char × Cursor
  | 0, c => ([], c)
  | fuel + 1, c =>
    let c := skipIndent indent c
    if isBreak c.peek then
      let (br, c) := c.lineBreak
      let (more, c) := emptyLines indent fuel c
      (br ++ more, c)
    else ([], c)

/-- The lines of a block scalar. Gives the text without its end, the last line break and the
empty lines after it. -/
def lines (folded : Bool) (indent : Nat) : (fuel : Nat) → (before : List Char) → Cursor →
    List Char × List Char × List Char × Cursor
  | 0, before, c => ([], [], before, c)
  | fuel + 1, before, c =>
    if c.column = indent && !c.rest.isEmpty then
      let indentedMore := isSpaceOrTab c.peek
      let line := c.run (!isBreakOrEnd ·)
      let (br, c) := (c.skip line.length).lineBreak
      let (empty, c) := emptyLines indent (c.rest.length + 1) c
      if c.column = indent && !c.rest.isEmpty then
        let joint :=
          if folded && br = ['\n'] && !indentedMore && !isSpaceOrTab c.peek then
            if empty.isEmpty then [' '] else []
          else br
        let (more, last, tail, c) := lines folded indent fuel empty c
        (before ++ line ++ joint ++ more, last, tail, c)
      else (before ++ line, br, empty, c)
    else ([], [], before, c)

/-- A block scalar, from its mark on; `indent` is that of the collection it stands in. -/
def scan (folded : Bool) (indent : Int) (c : Cursor) : Except Error (List Char × Cursor) := do
  let (chomping, increment, c) ← header c.next
  let c ← c.finishLine
  let least : Nat := (max (indent + 1) 1).toNat
  let (before, indent, c) :=
    match increment with
    | none =>
      let (before, widest, c) := leading (c.rest.length + 1) 0 c
      (before, max least widest, c)
    | some n =>
      let indent := least + n - 1
      let (before, c) := emptyLines indent (c.rest.length + 1) c
      (before, indent, c)
  let (text, last, tail, c) := lines folded indent (c.rest.length + 1) before c
  let ending := match chomping with
    | .strip => []
    | .clip => last
    | .keep => last ++ tail
  return (text ++ ending, c)

end BrowserFlow.Yaml.Block
