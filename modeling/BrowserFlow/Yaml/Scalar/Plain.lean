import BrowserFlow.Yaml.Cursor

/-!
# Plain scalars

A scalar without quotes ends before a comment, at a colon that ends a key, at the punctuation of
a flow collection it stands in, and where the indentation falls back. Its lines are folded: one
break becomes a space, of several the first is dropped.
-/

namespace BrowserFlow.Yaml.Plain

/-- The punctuation of flow collections. -/
def isFlowMark (c : Char) : Bool :=
  c = ',' || c = '[' || c = ']' || c = '\x7b' || c = '\x7d'

/-- Whether a colon before this character ends a key. -/
def endsKey (inFlow : Bool) (after : Char) : Bool :=
  isGap after || (inFlow && isFlowMark after)

/-- The characters of a plain scalar up to the next space, break or end of the scalar. -/
def word (inFlow : Bool) : List Char → List Char
  | [] => []
  | c :: cs =>
    if isGap c || (c = ':' && endsKey inFlow (cs.headD '\x00')) ||
        (inFlow && (isFlowMark c || c = '?')) then []
    else c :: word inFlow cs

/-- The breaks and spaces after a first line break; the flag tells whether a mark between
documents ends the scalar. -/
def breaks : (fuel : Nat) → Cursor → List Char × Bool × Cursor
  | 0, c => ([], false, c)
  | fuel + 1, c =>
    if c.peek = ' ' then breaks fuel c.next
    else if isBreak c.peek then
      let (br, c) := c.lineBreak
      if c.atDocumentMark then ([], true, c)
      else
        let (more, ended, c) := breaks fuel c
        (br ++ more, ended, c)
    else ([], false, c)

/-- What separates two words of a plain scalar; empty if the scalar ends. The flag tells whether a
line ended. -/
def gap (c : Cursor) : List Char × Bool × Cursor :=
  let spaces := c.run (· = ' ')
  let c := c.skip spaces.length
  if isBreak c.peek then
    let (br, c) := c.lineBreak
    if c.atDocumentMark then ([], true, c)
    else
      let (more, ended, c) := breaks (c.rest.length + 1) c
      if ended then ([], true, c)
      else
        let first := if br != ['\n'] then br else if more.isEmpty then [' '] else []
        (first ++ more, true, c)
  else (spaces, false, c)

/-- The words of a plain scalar, each after the gap before it. `indent` is the least column of a
further line. The flag tells whether the scalar ended at the end of a line. -/
def words (inFlow : Bool) (indent : Int) :
    (fuel : Nat) → (before : List Char) → (lineEnded : Bool) → Cursor → List Char × Bool × Cursor
  | 0, _, lineEnded, c => ([], lineEnded, c)
  | fuel + 1, before, lineEnded, c =>
    if c.peek = '#' then ([], lineEnded, c)
    else
      let w := word inFlow c.rest
      if w.isEmpty then ([], lineEnded, c)
      else
        let (after, lineEnded, c) := gap (c.skip w.length)
        if after.isEmpty || c.peek = '#' || (!inFlow && (c.column : Int) < indent) then
          (before ++ w, lineEnded, c)
        else
          let (more, lineEnded, c) := words inFlow indent fuel after lineEnded c
          (before ++ w ++ more, lineEnded, c)

/-- A plain scalar, and whether it ended at the end of a line. -/
def scan (inFlow : Bool) (indent : Int) (c : Cursor) : List Char × Bool × Cursor :=
  words inFlow indent (c.rest.length + 1) [] false c

end BrowserFlow.Yaml.Plain
