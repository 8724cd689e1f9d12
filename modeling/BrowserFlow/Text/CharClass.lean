/-!
# Character classes

A class of characters is a list of inclusive ranges of code points in increasing order. The
tables of the Unicode properties that the text operations need are in the modules beside this
one, one module for a property.
-/

namespace BrowserFlow.Text

/-- A set of characters: inclusive ranges of code points, in increasing order. -/
structure CharClass where
  ranges : List (Nat × Nat)

/-- Whether a code point lies in one of the ranges; stops at the first range beyond it. -/
def inRanges (n : Nat) : List (Nat × Nat) → Bool
  | [] => false
  | (lo, hi) :: rest => if n < lo then false else n ≤ hi || inRanges n rest

/-- Membership of a character. -/
def CharClass.contains (k : CharClass) (c : Char) : Bool :=
  inRanges c.toNat k.ranges

/-!
## Blanks

White space in the sense of text processing: the ASCII controls between tab and carriage return,
the four information separators, the next-line control and every Unicode space.
-/

/-- White space. -/
def isBlank (c : Char) : Bool :=
  let n := c.toNat
  (9 ≤ n && n ≤ 13) || (28 ≤ n && n ≤ 32) || n == 0x85 || n == 0xA0 || n == 0x1680 ||
    (0x2000 ≤ n && n ≤ 0x200A) || n == 0x2028 || n == 0x2029 || n == 0x202F || n == 0x205F ||
    n == 0x3000

/-- A list without its last elements that satisfy `p`. -/
def dropEndWhile {α : Type} (p : α → Bool) (xs : List α) : List α :=
  (xs.reverse.dropWhile p).reverse

/-- Characters without the blanks at both ends. -/
def trimChars (cs : List Char) : List Char :=
  dropEndWhile isBlank (cs.dropWhile isBlank)

/-- A text without the blanks at both ends. -/
def trim (s : String) : String :=
  String.ofList (trimChars s.toList)

/-- Whether a text holds nothing but blanks. -/
def isBlankText (s : String) : Bool :=
  s.toList.all isBlank

/-- Every run of blanks becomes one space. -/
def squeezeChars : List Char → List Char
  | [] => []
  | [c] => if isBlank c then [' '] else [c]
  | c :: d :: rest =>
    if isBlank c then
      if isBlank d then squeezeChars (d :: rest) else ' ' :: squeezeChars (d :: rest)
    else c :: squeezeChars (d :: rest)

/-- A text with every run of blanks made one space and none left at the ends. -/
def collapse (s : String) : String :=
  trim (String.ofList (squeezeChars s.toList))

/-!
## Digits

Every script writes its decimal digits as ten consecutive code points, zero first, so the
positions of the zeros determine all of them. Superscripts and circled figures are digits too,
but have no place value.
-/

/-- The code points of the digit zero in each script, in increasing order. -/
def zeros : List Nat := [
  0x30, 0x660, 0x6F0, 0x7C0, 0x966, 0x9E6, 0xA66, 0xAE6, 0xB66, 0xBE6, 0xC66, 0xCE6, 0xD66, 0xDE6,
  0xE50, 0xED0, 0xF20, 0x1040, 0x1090, 0x17E0, 0x1810, 0x1946, 0x19D0, 0x1A80, 0x1A90, 0x1B50,
  0x1BB0, 0x1C40, 0x1C50, 0xA620, 0xA8D0, 0xA900, 0xA9D0, 0xA9F0, 0xAA50, 0xABF0, 0xFF10, 0x104A0,
  0x10D30, 0x11066, 0x110F0, 0x11136, 0x111D0, 0x112F0, 0x11450, 0x114D0, 0x11650, 0x116C0,
  0x11730, 0x118E0, 0x11950, 0x11C50, 0x11D50, 0x11DA0, 0x16A60, 0x16AC0, 0x16B50, 0x1D7CE,
  0x1D7D8, 0x1D7E2, 0x1D7EC, 0x1D7F6, 0x1E140, 0x1E2F0, 0x1E950, 0x1FBF0]

/-- The value of a decimal digit of any script. -/
def digitValue? (c : Char) : Option Nat :=
  (zeros.find? fun z => z ≤ c.toNat && c.toNat < z + 10).map (c.toNat - ·)

/-- A decimal digit of any script. -/
def isDecimal (c : Char) : Bool :=
  (digitValue? c).isSome

/-- Superscript, subscript and enclosed figures: digits without a place value. -/
def figureChars : CharClass where
  ranges := [
    (0xB2, 0xB3), (0xB9, 0xB9), (0x1369, 0x1371), (0x19DA, 0x19DA), (0x2070, 0x2070),
    (0x2074, 0x2079), (0x2080, 0x2089), (0x2460, 0x2468), (0x2474, 0x247C), (0x2488, 0x2490),
    (0x24EA, 0x24EA), (0x24F5, 0x24FD), (0x24FF, 0x24FF), (0x2776, 0x277E), (0x2780, 0x2788),
    (0x278A, 0x2792), (0x10A40, 0x10A43), (0x10E60, 0x10E68), (0x11052, 0x1105A),
    (0x1F100, 0x1F10A)]

/-- A decimal digit, or a figure without a place value such as a superscript. -/
def isFigure (c : Char) : Bool :=
  isDecimal c || figureChars.contains c

/-- A text that is not empty and made of figures alone. -/
def isFigures (s : String) : Bool :=
  !s.isEmpty && s.toList.all isFigure

end BrowserFlow.Text
