import BrowserFlow.Text.Quoted
import BrowserFlow.Yaml.Scalar.Style

/-!
# Writing scalars

A long scalar is folded: behind the eightieth column a single space is written as a line end, or,
in double quotes, the line is broken by a backslash. Keys are never folded.
-/

namespace BrowserFlow.Yaml

/-!
## The pen

What has been written of a document, and where the pen stands: the column, whether a space may be
left out before the next mark, and whether only marks of indentation stand before it on the line.
-/

structure Pen where
  /-- The characters written so far, the last one first. -/
  written : List Char := []
  column : Nat := 0
  /-- The last thing written was white space. -/
  spaced : Bool := true
  /-- The line holds nothing but indentation and marks that count as such. -/
  fresh : Bool := true

namespace Pen

def text (p : Pen) : String :=
  String.ofList p.written.reverse

/-- Writes some characters of a line. -/
def put (p : Pen) (cs : List Char) : Pen :=
  { p with written := cs.reverse ++ p.written, column := p.column + cs.length }

/-- Begins a new line. -/
def newline (p : Pen) (mark : Char := '\n') : Pen :=
  { written := mark :: p.written, column := 0, spaced := true, fresh := true }

/-- Goes to a column, on a new line if something stands in the way. -/
def indent (p : Pen) (column : Nat) : Pen :=
  let blocked := !p.fresh || column < p.column || (p.column == column && !p.spaced)
  let p := if blocked then p.newline else p
  if p.column < column then
    { p.put (List.replicate (column - p.column) ' ') with spaced := true }
  else p

/-- Writes a mark, with a space before it where one is needed. A mark of indentation leaves the
line fresh. -/
def mark (p : Pen) (m : String) (apart indentation : Bool) : Pen :=
  let cs := if p.spaced || !apart then m.toList else ' ' :: m.toList
  { p.put cs with spaced := false, fresh := p.fresh && indentation }

/-- Nothing more is left out: the next mark stands apart. -/
def settle (p : Pen) : Pen :=
  { p with spaced := false, fresh := false }

end Pen

/-! ## The runs of a scalar -/

/-- A stretch of a scalar. -/
inductive Run
  | word (cs : List Char)
  | spaces (n : Nat)
  | breaks (cs : List Char)

namespace Run

/-- Puts a character in front of the runs of a text. -/
def cons (c : Char) (runs : List Run) : List Run :=
  if c = ' ' then
    match runs with
    | spaces n :: rest => spaces (n + 1) :: rest
    | _ => spaces 1 :: runs
  else if Style.isBreak c then
    match runs with
    | breaks cs :: rest => breaks (c :: cs) :: rest
    | _ => breaks [c] :: runs
  else
    match runs with
    | word cs :: rest => word (c :: cs) :: rest
    | _ => word [c] :: runs

/-- The runs of a text. -/
def split (cs : List Char) : List Run :=
  cs.foldr cons []

end Run

namespace Pen

/-- The column behind which lines are folded. -/
def width : Nat := 80

/-- Writes line ends inside a scalar. A line feed at the front takes one more, because a single one
would be read as a space. -/
def breakLines (p : Pen) (column : Nat) (cs : List Char) : Pen :=
  let p := if cs.head? = some '\n' then p.newline else p
  (cs.foldl (fun p c => p.newline c) p).indent column

/-- Writes a plain scalar, which holds no line ends. -/
def plain (p : Pen) (column : Nat) (fold : Bool) (cs : List Char) : Pen :=
  if cs.isEmpty then p
  else
    let p := if p.spaced then p else p.put [' ']
    (Run.split cs).foldl (fun p run =>
      match run with
      | .word cs => p.put cs
      | .spaces n =>
        if n == 1 && width < p.column && fold then (p.indent column).settle
        else p.put (List.replicate n ' ')
      | .breaks cs => (p.breakLines column cs).settle) p.settle

/-- Writes the runs of a scalar in single quotes; `first` tells whether it begins here. -/
def singleRuns (column : Nat) (fold : Bool) (p : Pen) (first : Bool) : List Run → Pen
  | [] => p
  | run :: rest =>
    let p := match run with
      | .word cs => p.put (cs.flatMap fun c => if c = '\'' then ['\'', '\''] else [c])
      | .spaces n =>
        if n == 1 && width < p.column && fold && !first && !rest.isEmpty then p.indent column
        else p.put (List.replicate n ' ')
      | .breaks cs => p.breakLines column cs
    singleRuns column fold p false rest

/-- Writes a scalar in single quotes. -/
def single (p : Pen) (column : Nat) (fold : Bool) (cs : List Char) : Pen :=
  (singleRuns column fold (p.mark "'" true false) true (Run.split cs)).mark "'" false false

/-- The letter of a short escape. -/
def escapeLetter? : Char → Option Char
  | '\x00' => some '0'
  | '\x07' => some 'a'
  | '\x08' => some 'b'
  | '\t' => some 't'
  | '\n' => some 'n'
  | '\x0b' => some 'v'
  | '\x0c' => some 'f'
  | '\r' => some 'r'
  | '\x1b' => some 'e'
  | '"' => some '"'
  | '\\' => some '\\'
  | '\x85' => some 'N'
  | '\u2028' => some 'L'
  | '\u2029' => some 'P'
  | _ => none

/-- The escape of a character in double quotes. -/
def escape (c : Char) : List Char :=
  let n := c.toNat
  let upper := fun w => (Text.hexDigits w n).map Char.toUpper
  match escapeLetter? c with
  | some l => ['\\', l]
  | none =>
    if n ≤ 0xFF then '\\' :: 'x' :: upper 2
    else if n ≤ 0xFFFF then '\\' :: 'u' :: upper 4
    else '\\' :: 'U' :: upper 8

/-- Whether a character is escaped in double quotes. -/
def isEscaped (c : Char) : Bool :=
  let n := c.toNat
  c = '"' || c = '\\' || c = '\x85' || c = '\u2028' || c = '\u2029' || n == 0xFEFF ||
    !((0x20 ≤ n && n ≤ 0x7E) || (0xA0 ≤ n && n ≤ 0xFFFD))

/-- Breaks a line in double quotes; a space behind the break is escaped. -/
def breakDouble (p : Pen) (column : Nat) (next : Option Char) : Pen :=
  let p := ((p.put ['\\']).indent column).settle
  if next = some ' ' then p.put ['\\'] else p

/-- Writes characters in double quotes. A line may be broken before a space, before a character
that follows an escape (`loose`), and one column later behind an escape, but not at either end. -/
def doubleChars (column : Nat) (fold : Bool) (p : Pen) (first loose : Bool) : List Char → Pen
  | [] => p
  | c :: cs =>
    let inside := fold && !first && !cs.isEmpty
    if isEscaped c then
      let p := p.put (escape c)
      let p := if inside && width + 1 < p.column then p.breakDouble column cs.head? else p
      doubleChars column fold p false true cs
    else
      let p :=
        if inside && (c = ' ' || loose) && width < p.column then p.breakDouble column (some c)
        else p
      doubleChars column fold (p.put [c]) false false cs

/-- Writes a scalar in double quotes. -/
def double (p : Pen) (column : Nat) (fold : Bool) (cs : List Char) : Pen :=
  (doubleChars column fold (p.mark "\"" true false) true true cs).mark "\"" false false

/-- The lines of a block, without the end of the last. -/
def blockLines : List Char → List (List Char)
  | [] => []
  | c :: cs =>
    if c = '\n' then [] :: blockLines cs
    else match blockLines cs with
      | line :: rest => (c :: line) :: rest
      | [] => [[c]]

/-- Writes a scalar as a block of lines; each of them ends with a line feed. -/
def literal (p : Pen) (column : Nat) (cs : List Char) : Pen :=
  (blockLines cs).foldl (fun p line => ((p.indent column).put line).newline)
    (p.mark "|" true false).newline

end Pen

end BrowserFlow.Yaml
