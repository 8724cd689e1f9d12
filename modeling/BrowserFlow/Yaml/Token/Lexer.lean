import BrowserFlow.Yaml.Scalar.Block
import BrowserFlow.Yaml.Scalar.Plain
import BrowserFlow.Yaml.Scalar.Quoted
import BrowserFlow.Yaml.Token.Basic

/-!
# From text to tokens

The lexer keeps the columns of the block collections it is in, and the depth of flow collections.
A token that may turn out to be a key is remembered with its place, one for each depth of flow
collections: when a colon follows on the same line, a key token is put before it, and the
collection is opened there if that is its first key.
-/

namespace BrowserFlow.Yaml

/-- A token that may turn out to be a key. -/
structure KeyPlace where
  /-- How many tokens come before it. -/
  position : Nat
  /-- It can only be a key, because it stands where the next key of its collection is due. -/
  required : Bool
  index : Nat
  line : Nat
  column : Nat

structure Lexer where
  cursor : Cursor
  tokens : Array Token := #[]
  /-- The depth of flow collections. -/
  flow : Nat := 0
  /-- The column of the block collection, `-1` outside of any. -/
  indent : Int := -1
  /-- The columns of the collections around it. -/
  outer : List Int := []
  /-- Whether a key may stand here. -/
  keyAllowed : Bool := true
  /-- What may turn out to be a key, by depth. -/
  keys : List (Nat × KeyPlace) := []

namespace Lexer

def push (l : Lexer) (t : Token) : Lexer :=
  { l with tokens := l.tokens.push t }

/-- Adds a token of some characters' length. -/
def take (l : Lexer) (length : Nat) (t : Token) : Lexer :=
  { l.push t with cursor := l.cursor.skip length }

/-- Past blanks, comments and line breaks. Outside of flow collections a key may stand at the
beginning of a line. -/
def skipBlank : (fuel : Nat) → Lexer → Lexer
  | 0, l => l
  | fuel + 1, l =>
    let c := l.cursor.skipSpaces.skipComment
    if isBreak c.peek then
      skipBlank fuel
        { l with cursor := c.lineBreak.2, keyAllowed := l.keyAllowed || l.flow == 0 }
    else { l with cursor := c }

/-- Forgets the places that can no longer be keys because their line has ended or they are too far
back. A required key may not be missed. -/
def forgetStale (l : Lexer) : Except Error Lexer :=
  let stale := fun k : KeyPlace => k.line != l.cursor.line || 1024 < l.cursor.index - k.index
  if l.keys.any fun k => stale k.2 && k.2.required then .error .malformed
  else .ok { l with keys := l.keys.filter fun k => !stale k.2 }

/-- Forgets the place at this depth. -/
def forgetKey (l : Lexer) : Except Error Lexer :=
  if l.keys.any fun k => k.1 == l.flow && k.2.required then .error .malformed
  else .ok { l with keys := l.keys.filter fun k => k.1 != l.flow }

/-- Remembers that the next token may turn out to be a key. -/
def rememberKey (l : Lexer) : Except Error Lexer :=
  if l.keyAllowed then do
    let c := l.cursor
    let place : KeyPlace :=
      { position := l.tokens.size, required := l.flow == 0 && l.indent == (c.column : Int)
        index := c.index, line := c.line, column := c.column }
    let l ← l.forgetKey
    return { l with keys := (l.flow, place) :: l.keys }
  else .ok l

/-- Closes the block collections further to the right than a column. -/
def closeBlocks (column : Int) (l : Lexer) : (outer : List Int) → Lexer
  | [] => { l with outer := [] }
  | o :: outer =>
    if column < l.indent then closeBlocks column { l.push .blockEnd with indent := o } outer
    else { l with outer := o :: outer }

/-- Closes the block collections further to the right, unless a flow collection is open. -/
def unwind (column : Int) (l : Lexer) : Lexer :=
  if l.flow == 0 then closeBlocks column l l.outer else l

/-- Opens a block collection at a column if none is open there. -/
def openBlock (column : Nat) (t : Token) (position : Option Nat) (l : Lexer) : Lexer :=
  if l.indent < column then
    let tokens := match position with
      | some p => l.tokens.insertIdxIfInBounds p t
      | none => l.tokens.push t
    { l with outer := l.indent :: l.outer, indent := column, tokens }
  else l

/-- Puts a token before those from a position on. -/
def insertAt (position : Nat) (t : Token) (l : Lexer) : Lexer :=
  { l with tokens := l.tokens.insertIdxIfInBounds position t }

/-- Ends everything that is open before a mark between documents or a directive. -/
def endDocument (l : Lexer) : Except Error Lexer := do
  let l ← (l.unwind (-1)).forgetKey
  return { l with keyAllowed := false }

def openFlow (t : Token) (l : Lexer) : Except Error Lexer := do
  let l ← l.rememberKey
  return { l.take 1 t with flow := l.flow + 1, keyAllowed := true }

def closeFlow (t : Token) (l : Lexer) : Except Error Lexer := do
  if l.flow == 0 then throw .malformed
  let l ← l.forgetKey
  return { l.take 1 t with flow := l.flow - 1, keyAllowed := false }

def flowEntry (l : Lexer) : Except Error Lexer := do
  let l ← l.forgetKey
  return { l.take 1 .flowEntry with keyAllowed := true }

/-- A dash, which outside of flow collections may open a sequence. -/
def blockEntry (l : Lexer) : Except Error Lexer := do
  if l.flow == 0 && !l.keyAllowed then throw .malformed
  let l := if l.flow == 0 then l.openBlock l.cursor.column .blockSequenceStart none else l
  let l ← l.forgetKey
  return { l.take 1 .blockEntry with keyAllowed := true }

/-- A question mark, which outside of flow collections may open a mapping. -/
def explicitKey (l : Lexer) : Except Error Lexer := do
  if l.flow == 0 && !l.keyAllowed then throw .malformed
  let l := if l.flow == 0 then l.openBlock l.cursor.column .blockMappingStart none else l
  let l ← l.forgetKey
  return { l.take 1 .key with keyAllowed := l.flow == 0 }

/-- A colon. What stands before it becomes a key if it may; otherwise the colon belongs to an
explicit key, or to one that is empty. -/
def value (l : Lexer) : Except Error Lexer := do
  match l.keys.find? fun k => k.1 == l.flow with
  | some (_, place) =>
    let l := { l with keys := l.keys.filter fun k => k.1 != l.flow }
    let l := l.insertAt place.position .key
    let l := if l.flow == 0 then
        l.openBlock place.column .blockMappingStart (some place.position)
      else l
    return { l.take 1 .value with keyAllowed := false }
  | none =>
    if l.flow == 0 && !l.keyAllowed then throw .malformed
    let l := if l.flow == 0 then l.openBlock l.cursor.column .blockMappingStart none else l
    let l ← l.forgetKey
    return { l.take 1 .value with keyAllowed := l.flow == 0 }

/-- A token that may be a key, read by `scan`. -/
def scalarLike (scan : Cursor → Except Error (Token × Cursor)) (l : Lexer) :
    Except Error Lexer := do
  let l ← l.rememberKey
  let (t, cursor) ← scan l.cursor
  return { l.push t with cursor, keyAllowed := false }

def quoted (l : Lexer) : Except Error Lexer :=
  l.scalarLike fun c => do
    let (text, c) ← Quoted.scan c
    return (.scalar (String.ofList text) false, c)

def plain (l : Lexer) : Except Error Lexer := do
  let l ← l.rememberKey
  let (text, keyAllowed, cursor) := Plain.scan (l.flow != 0) (l.indent + 1) l.cursor
  return { l.push (.scalar (String.ofList text) true) with cursor, keyAllowed }

def block (folded : Bool) (l : Lexer) : Except Error Lexer := do
  let l ← l.forgetKey
  let (text, cursor) ← Block.scan folded l.indent l.cursor
  return { l.push (.scalar (String.ofList text) false) with cursor, keyAllowed := true }

/-- Whether a plain scalar may start here. -/
def plainStarts (l : Lexer) : Bool :=
  let c := l.cursor.peek
  !(isGap c || "-?:,[]\x7b\x7d#&*!|>'\"%@\x60".toList.contains c) ||
    (!isGap (l.cursor.peek 1) && (c = '-' || (l.flow == 0 && (c = '?' || c = ':'))))

/-- Reads the next token; the cursor stands on its first character. -/
def token (l : Lexer) : Except Error Lexer := do
  let c := l.cursor
  let free := l.flow != 0 || isGap (c.peek 1)
  match c.peek with
  | '%' =>
    if c.column == 0 then
      let l ← l.endDocument
      let (t, cursor) ← scanDirective l.cursor
      return { l.push t with cursor }
    else throw .malformed
  | '[' => l.openFlow .flowSequenceStart
  | '\x7b' => l.openFlow .flowMappingStart
  | ']' => l.closeFlow .flowSequenceEnd
  | '\x7d' => l.closeFlow .flowMappingEnd
  | ',' => l.flowEntry
  | '*' => l.scalarLike fun c => do
    let (name, c) ← scanName c
    return (.alias name, c)
  | '&' => l.scalarLike fun c => do
    let (name, c) ← scanName c
    return (.anchor name, c)
  | '!' => l.scalarLike scanTag
  | '\'' | '"' => l.quoted
  | ch =>
    if c.column == 0 && c.atMark '-' then return (← l.endDocument).take 3 .documentStart
    else if c.column == 0 && c.atMark '.' then return (← l.endDocument).take 3 .documentEnd
    else if ch = '-' && isGap (c.peek 1) then l.blockEntry
    else if ch = '?' && free then l.explicitKey
    else if ch = ':' && free then l.value
    else if ch = '|' && l.flow == 0 then l.block false
    else if ch = '>' && l.flow == 0 then l.block true
    else if l.plainStarts then l.plain
    else throw .malformed

/-- Reads tokens to the end of the text. -/
def run : (fuel : Nat) → Lexer → Except Error Lexer
  | 0, _ => .error .malformed
  | fuel + 1, l => do
    let l ← (l.skipBlank (l.cursor.rest.length + 1)).forgetStale
    let l := l.unwind l.cursor.column
    if l.cursor.rest.isEmpty then
      let l ← (l.unwind (-1)).forgetKey
      return l
    else run fuel (← l.token)

end Lexer

/-- A character that may stand in a document. -/
def isAllowed (c : Char) : Bool :=
  let n := c.toNat
  n == 9 || n == 10 || n == 13 || (0x20 ≤ n && n ≤ 0x7E) || n == 0x85 ||
    (0xA0 ≤ n && n ≤ 0xD7FF) || (0xE000 ≤ n && n ≤ 0xFFFD) || 0x10000 ≤ n

/-- The tokens of a text, which may begin with a byte-order mark. -/
def tokens (text : String) : Except Error (List Token) := do
  let cs := text.toList
  if !cs.all isAllowed then throw .malformed
  let cursor : Cursor := { rest := cs }
  let cursor := if cursor.peek = '\uFEFF' then cursor.next else cursor
  let l ← Lexer.run (cs.length + 2) { cursor }
  return l.tokens.toList

end BrowserFlow.Yaml
