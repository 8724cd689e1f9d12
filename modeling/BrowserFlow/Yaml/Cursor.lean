import BrowserFlow.Yaml.Error

/-!
# A place in a text

A cursor is what is left of a text, together with how many characters lie before it, on which
line it stands and in which column. The end of the text reads as the character zero, which no
text holds.
-/

namespace BrowserFlow.Yaml

/-- A line break. -/
def isBreak (c : Char) : Bool :=
  c = '\n' || c = '\r' || c = '\x85' || c = '\u2028' || c = '\u2029'

/-- The end of the text. -/
def isEnd (c : Char) : Bool :=
  c = '\x00'

def isBreakOrEnd (c : Char) : Bool :=
  isBreak c || isEnd c

/-- The end of a line, or a space. -/
def isSpaceOrEnd (c : Char) : Bool :=
  c = ' ' || isBreakOrEnd c

/-- What separates one token from the next: spaces, tabs, line breaks, the end. -/
def isGap (c : Char) : Bool :=
  c = '\t' || isSpaceOrEnd c

/-- A space or a tab. -/
def isSpaceOrTab (c : Char) : Bool :=
  c = ' ' || c = '\t'

/-- A character of the name of an anchor, a directive or a tag handle. -/
def isNameChar (c : Char) : Bool :=
  c.isAlphanum || c = '-' || c = '_'

structure Cursor where
  rest : List Char
  index : Nat := 0
  line : Nat := 0
  column : Nat := 0
  deriving Inhabited

namespace Cursor

/-- The character `ahead` places further on. -/
def peek (c : Cursor) (ahead : Nat := 0) : Char :=
  (c.rest.drop ahead).headD '\x00'

/-- One character further on. The first half of a two-character line break does not end the
line, and a byte-order mark takes no column. -/
def next (c : Cursor) : Cursor :=
  match c.rest with
  | [] => c
  | ch :: rest =>
    let c := { c with rest, index := c.index + 1 }
    if isBreak ch && !(ch = '\r' && rest.head? = some '\n') then
      { c with line := c.line + 1, column := 0 }
    else if ch = '\uFEFF' then c
    else { c with column := c.column + 1 }

/-- Some characters further on. -/
def skip (c : Cursor) : Nat → Cursor
  | 0 => c
  | n + 1 => c.next.skip n

/-- The characters at the cursor that satisfy `p`. -/
def run (c : Cursor) (p : Char → Bool) : List Char :=
  c.rest.takeWhile p

/-- Behind the characters that satisfy `p`. -/
def skipWhile (c : Cursor) (p : Char → Bool) : Cursor :=
  c.skip (c.run p).length

def skipSpaces (c : Cursor) : Cursor :=
  c.skipWhile (· = ' ')

/-- Behind a comment, if one starts here. -/
def skipComment (c : Cursor) : Cursor :=
  if c.peek = '#' then c.skipWhile (!isBreakOrEnd ·) else c

/-- The line break at the cursor, if there is one: the breaks of ASCII and the next-line control
read as a line feed, the two Unicode separators as themselves. -/
def lineBreak (c : Cursor) : List Char × Cursor :=
  match c.rest with
  | '\r' :: '\n' :: _ => (['\n'], c.skip 2)
  | ch :: _ =>
    if ch = '\r' || ch = '\n' || ch = '\x85' then (['\n'], c.next)
    else if isBreak ch then ([ch], c.next)
    else ([], c)
  | [] => ([], c)

/-- Whether three dashes or three points stand here by themselves. -/
def atMark (c : Cursor) (mark : Char) : Bool :=
  c.peek = mark && c.peek 1 = mark && c.peek 2 = mark && isGap (c.peek 3)

/-- Whether a mark between documents stands here. -/
def atDocumentMark (c : Cursor) : Bool :=
  c.atMark '-' || c.atMark '.'

/-- To the end of the line, on which nothing but a comment may be left. -/
def finishLine (c : Cursor) : Except Error Cursor :=
  let c := c.skipSpaces.skipComment
  if isBreakOrEnd c.peek then .ok c.lineBreak.2 else .error .malformed

end Cursor

end BrowserFlow.Yaml
