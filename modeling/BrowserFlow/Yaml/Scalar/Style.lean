import BrowserFlow.Yaml.Tag

/-!
# How a scalar can be written

A scalar is written plainly if nothing in it would be read as something else, in single quotes if
it needs no escapes, and in double quotes otherwise. `Traits.of` looks at the text alone; the style
also depends on the place.
-/

namespace BrowserFlow.Yaml

/-- The styles in which scalars are written. -/
inductive Style
  | plain
  | single
  | double
  /-- A block of lines. -/
  | literal
  deriving Repr, DecidableEq

namespace Style

/-- A line end inside a scalar. -/
def isBreak (c : Char) : Bool :=
  c = '\n' || c = '\x85' || c = '\u2028' || c = '\u2029'

/-- A blank, a tab, a line end or a NUL. -/
def isSeparator (c : Char) : Bool :=
  isBreak c || c = '\x00' || c = ' ' || c = '\t' || c = '\r'

/-- A character that needs no escape. -/
def isOrdinary (c : Char) : Bool :=
  let n := c.toNat
  c = '\n' || (0x20 ≤ n && n ≤ 0x7E) ||
    ((n == 0x85 || (0xA0 ≤ n && n ≤ 0xFFFD) || (0x10000 ≤ n && n < 0x10FFFF)) && n != 0xFEFF)

/-- What decides how a text can be written. -/
structure Traits where
  empty : Bool
  multiline : Bool
  allowPlain : Bool
  allowSingle : Bool
  allowBlock : Bool

/-- Whether a character at the front would begin something other than a plain scalar. -/
def isIndicatorFirst (c : Char) (followed : Bool) : Bool :=
  "#,[]\x7b\x7d&*!|>'\"%@\x60".toList.contains c ||
    (followed && (c = '?' || c = ':' || c = '-'))

/-- Whether a character behind the first would end a plain scalar. -/
def isIndicatorLater (c : Char) (preceded followed : Bool) : Bool :=
  (c = ':' && followed) || (c = '#' && preceded)

/-- Whether nothing but separators follows at once. -/
def separated : List Char → Bool
  | [] => true
  | c :: _ => isSeparator c

/-- Whether some characters hold an indicator; `previous` is the character before them. -/
def hasIndicator (previous : Option Char) : List Char → Bool
  | [] => false
  | c :: cs =>
    (match previous with
      | none => isIndicatorFirst c (separated cs)
      | some p => isIndicatorLater c (isSeparator p) (separated cs)) ||
    hasIndicator (some c) cs

/-- Whether a character that satisfies `p` is followed by one that satisfies `q`. -/
def adjacent (p q : Char → Bool) : List Char → Bool
  | c :: d :: cs => (p c && q d) || adjacent p q (d :: cs)
  | _ => false

def isSpace (c : Char) : Bool :=
  c = ' '

/-- The traits of a text. -/
def Traits.of (cs : List Char) : Traits :=
  let edge := fun p : Char → Bool => cs.head?.any p || cs.getLast?.any p
  let multiline := cs.any isBreak
  let breakSpace := adjacent isBreak isSpace cs
  let escapes := adjacent isSpace isBreak cs || !cs.all isOrdinary
  let marker := "---".toList.isPrefixOf cs || "...".toList.isPrefixOf cs
  if cs.isEmpty then ⟨true, false, true, true, false⟩
  else
    { empty := false
      multiline
      allowPlain := !(edge isSpace || edge isBreak || breakSpace || escapes || multiline ||
        marker || hasIndicator none cs)
      allowSingle := !(breakSpace || escapes)
      allowBlock := !(cs.getLast?.any isSpace || escapes) }

/-- The style of a text. `plainly` tells whether the plain form would be read with the right tag,
`asKey` whether it is written as a key in one line, and `block` whether lines are asked for. -/
def choose (traits : Traits) (plainly asKey block : Bool) : Style :=
  if block then
    if !asKey && traits.allowBlock then literal else double
  else if plainly && traits.allowPlain && !(asKey && (traits.empty || traits.multiline)) then plain
  else if traits.allowSingle && !(asKey && traits.multiline) then single
  else double

end Style

end BrowserFlow.Yaml
