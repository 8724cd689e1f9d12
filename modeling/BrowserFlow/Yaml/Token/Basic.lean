import BrowserFlow.Decimal.Numeral
import BrowserFlow.Yaml.Cursor

/-!
# Tokens

A YAML document as a sequence of tokens. Nesting by indentation has become explicit: a block
collection is opened by a token of its own and closed by `blockEnd`.
-/

namespace BrowserFlow.Yaml

inductive Directive
  | version (major : Nat)
  | tag (handle start : String)
  | other
  deriving Repr, DecidableEq

inductive Token
  | directive (d : Directive)
  | documentStart
  | documentEnd
  | blockSequenceStart
  | blockMappingStart
  | blockEnd
  | flowSequenceStart
  | flowSequenceEnd
  | flowMappingStart
  | flowMappingEnd
  | blockEntry
  | flowEntry
  | key
  | value
  | alias (name : String)
  | anchor (name : String)
  /-- A tag by its handle and what follows it; a tag in full has no handle. -/
  | tag (handle : Option String) (suffix : String)
  | scalar (text : String) (plain : Bool)
  deriving Repr, DecidableEq

/-!
## Tags, anchors and directives

The tokens that are spelled with names: `&name`, `*name`, tags in their three spellings, and the
directives before a document.
-/

/-- A character that may stand in a tag; the percent sign introduces an escape. -/
def isTagChar (c : Char) : Bool :=
  c.isAlphanum || "-;/?:@&=+$,_.!~*'()[]%".toList.contains c

/-- The bytes of a row of escapes. -/
def escapedBytes? : List Char → Option (List UInt8)
  | [] => some []
  | '%' :: a :: b :: rest => do
    let digits ← [a, b].mapM fun c => if c.toNat < 128 then Decimal.digitIn? 16 c else none
    return UInt8.ofNat (Decimal.ofDigits 16 digits) :: (← escapedBytes? rest)
  | _ => none

/-- How many characters a row of escapes takes. -/
def escapesLength : List Char → Nat
  | '%' :: _ :: _ :: rest => escapesLength rest + 3
  | '%' :: rest => rest.length + 1
  | _ => 0

/-- The characters of a tag with its escapes undone. -/
def tagText : (fuel : Nat) → List Char → Except Error (List Char)
  | 0, _ => .error .malformed
  | _ + 1, [] => .ok []
  | fuel + 1, c :: cs =>
    if c = '%' then
      let length := escapesLength (c :: cs)
      match (escapedBytes? ((c :: cs).take length)).bind fun bytes =>
          String.fromUTF8? (ByteArray.mk bytes.toArray) with
      | some s => do return s.toList ++ (← tagText fuel ((c :: cs).drop length))
      | none => .error .malformed
    else do return c :: (← tagText fuel cs)

/-- The text of a tag at the cursor. -/
def scanTagText (c : Cursor) : Except Error (String × Cursor) := do
  let run := c.run isTagChar
  if run.isEmpty then throw .malformed
  let text ← tagText (run.length + 1) run
  return (String.ofList text, c.skip run.length)

/-- A tag handle: one exclamation mark, or a name between two. -/
def scanHandle (c : Cursor) : Except Error (String × Cursor) :=
  if c.peek != '!' then .error .malformed
  else if c.peek 1 = ' ' then .ok ("!", c.next)
  else
    let name := c.next.run isNameChar
    let c := c.next.skip name.length
    if c.peek = '!' then .ok (String.ofList ('!' :: name ++ ['!']), c.next) else .error .malformed

/-- Whether a second exclamation mark comes before the next space. -/
def hasHandle (c : Cursor) : Bool :=
  ((c.next.run (!isSpaceOrEnd ·)).contains '!')

/-- A tag. -/
def scanTag (c : Cursor) : Except Error (Token × Cursor) := do
  let (handle, suffix, c) ←
    if c.peek 1 = '<' then do
      let (text, c) ← scanTagText (c.skip 2)
      if c.peek = '>' then pure (none, text, c.next) else throw .malformed
    else if isGap (c.peek 1) then pure (none, "!", c.next)
    else do
      let (handle, c) ← if hasHandle c then scanHandle c else pure ("!", c.next)
      let (text, c) ← scanTagText c
      pure (some handle, text, c)
  if isSpaceOrEnd c.peek then return (.tag handle suffix, c) else throw .malformed

/-- The name behind the mark of an anchor or an alias. -/
def scanName (c : Cursor) : Except Error (String × Cursor) :=
  let name := c.next.run isNameChar
  let c := c.next.skip name.length
  let ends := isGap c.peek || "?:,]\x7d%@\x60".toList.contains c.peek
  if name.isEmpty || !ends then .error .malformed else .ok (String.ofList name, c)

/-- The number of a version, of which only the part before the point counts. -/
def scanVersion (c : Cursor) : Except Error (Nat × Cursor) :=
  let isDigit := fun ch : Char => ch.isDigit
  let major := c.run isDigit
  let c := c.skip major.length
  let minor := c.next.run isDigit
  let after := c.next.skip minor.length
  if major.isEmpty || c.peek != '.' || minor.isEmpty || !isSpaceOrEnd after.peek then
    .error .malformed
  else .ok (Decimal.ofDigits 10 (major.map fun ch => ch.toNat - '0'.toNat), after)

/-- A directive, up to the end of its line. -/
def scanDirective (c : Cursor) : Except Error (Token × Cursor) := do
  let name := c.next.run isNameChar
  let c := c.next.skip name.length
  if name.isEmpty || !isSpaceOrEnd c.peek then throw .malformed
  let (d, c) ←
    if name = "YAML".toList then do
      let (major, c) ← scanVersion c.skipSpaces
      pure (Directive.version major, c)
    else if name = "TAG".toList then do
      let (handle, c) ← scanHandle c.skipSpaces
      if c.peek != ' ' then throw .malformed
      let (start, c) ← scanTagText c.skipSpaces
      if !isSpaceOrEnd c.peek then throw .malformed
      pure (Directive.tag handle start, c)
    else pure (Directive.other, c.skipWhile (!isBreakOrEnd ·))
  return (.directive d, ← c.finishLine)

end BrowserFlow.Yaml
