import BrowserFlow.Decimal.Numeral
import BrowserFlow.Yaml.Cursor

/-!
# Quoted scalars

Between single quotes only a doubled quote is special; between double quotes the backslash
introduces escapes. Line breaks are folded as in plain scalars, and the spaces around them are
dropped.
-/

namespace BrowserFlow.Yaml.Quoted

/-- The character of a one-letter escape. -/
def letterEscape? : Char → Option Char
  | '0' => some '\x00'
  | 'a' => some '\x07'
  | 'b' => some '\x08'
  | 't' => some '\t'
  | '\t' => some '\t'
  | 'n' => some '\n'
  | 'v' => some '\x0b'
  | 'f' => some '\x0c'
  | 'r' => some '\r'
  | 'e' => some '\x1b'
  | ' ' => some ' '
  | '"' => some '"'
  | '\\' => some '\\'
  | '/' => some '/'
  | 'N' => some '\x85'
  | '_' => some '\xa0'
  | 'L' => some '\u2028'
  | 'P' => some '\u2029'
  | _ => none

/-- How many hexadecimal digits follow the letter of a code escape. -/
def codeLength? : Char → Option Nat
  | 'x' => some 2
  | 'u' => some 4
  | 'U' => some 8
  | _ => none

/-- A hexadecimal digit of ASCII. -/
def hexDigit? (c : Char) : Option Nat :=
  if c.toNat < 128 then Decimal.digitIn? 16 c else none

/-- The code that some hexadecimal digits spell. -/
def code? (digits : List Char) (length : Nat) : Option Nat :=
  if digits.length < length then none
  else (digits.mapM hexDigit?).map (Decimal.ofDigits 16)

/-- The character of a code, with the second half of a pair if the code is a first half. -/
def codeChar (code : Nat) (c : Cursor) : Except Error (Char × Cursor) :=
  if 0x7FFFFFFF < code then .error (.codePoint true)
  else if 0x10FFFF < code then .error (.codePoint false)
  else if 0xD800 ≤ code && code < 0xDC00 then
    match c.peek, c.peek 1, code? ((c.rest.drop 2).take 4) 4 with
    | '\\', 'u', some second =>
      if 0xDC00 ≤ second && second < 0xE000 then
        .ok (Char.ofNat (0x10000 + (code - 0xD800) * 0x400 + (second - 0xDC00)), c.skip 6)
      else .ok ('\uFFFD', c)
    | _, _, _ => .ok ('\uFFFD', c)
  else if 0xDC00 ≤ code && code < 0xE000 then .ok ('\uFFFD', c)
  else .ok (Char.ofNat code, c)

/-- The empty lines after a line break. -/
def breaks : (fuel : Nat) → Cursor → Except Error (List Char × Cursor)
  | 0, _ => .error .malformed
  | fuel + 1, c =>
    if c.atDocumentMark then .error .malformed
    else
      let c := c.skipWhile isSpaceOrTab
      if isBreak c.peek then do
        let (br, c) := c.lineBreak
        let (more, c) ← breaks fuel c
        return (br ++ more, c)
      else .ok ([], c)

/-- The spaces and line breaks at the cursor, folded. -/
def gap (c : Cursor) : Except Error (List Char × Cursor) :=
  let spaces := c.run isSpaceOrTab
  let c := c.skip spaces.length
  if isBreak c.peek then do
    let (br, c) := c.lineBreak
    let (more, c) ← breaks (c.rest.length + 1) c
    let first := if br != ['\n'] then br else if more.isEmpty then [' '] else []
    return (first ++ more, c)
  else .ok (spaces, c)

/-- What an escape stands for; the cursor is behind the backslash. -/
def escape (c : Cursor) : Except Error (List Char × Cursor) :=
  match letterEscape? c.peek, codeLength? c.peek with
  | some ch, _ => .ok ([ch], c.next)
  | none, some length =>
    match code? ((c.rest.drop 1).take length) length with
    | none => .error .malformed
    | some code => do
      let (ch, c) ← codeChar code (c.skip (length + 1))
      return ([ch], c)
  | none, none =>
    if isBreak c.peek then breaks (c.rest.length + 1) c.lineBreak.2 else .error .malformed

/-- The rest of a quoted scalar; the cursor ends behind its closing quote. -/
def body (double : Bool) : (fuel : Nat) → Cursor → Except Error (List Char × Cursor)
  | 0, _ => .error .malformed
  | fuel + 1, c => do
    let ch := c.peek
    if c.rest.isEmpty then throw .malformed
    if !double && ch = '\'' && c.peek 1 = '\'' then
      let (more, c) ← body double fuel (c.skip 2)
      return ('\'' :: more, c)
    if ch = (if double then '"' else '\'') then return ([], c.next)
    let (found, c) ←
      if double && ch = '\\' then escape c.next
      else if isSpaceOrTab ch || isBreak ch then gap c
      else pure ([ch], c.next)
    let (more, c) ← body double fuel c
    return (found ++ more, c)

/-- A quoted scalar, from its opening quote on. -/
def scan (c : Cursor) : Except Error (List Char × Cursor) :=
  body (c.peek = '"') (c.rest.length + 1) c.next

end BrowserFlow.Yaml.Quoted
