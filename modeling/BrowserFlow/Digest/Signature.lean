import BrowserFlow.Digest.Basic
import BrowserFlow.Text.Case

/-!
# Signatures of elements

Elements that look alike get the same signature: their tag and those of their classes that were
chosen by a person. Names that a tool makes up, such as `css-1x2y3z`, change with every build and
do not count.
-/

namespace BrowserFlow.Signature

/-- The most classes in a signature. -/
def maxClasses : Nat := 3

/-- The length of the longest class that counts. -/
def maxLength : Nat := 30

/-- A token without a line feed at its end. -/
def body (cs : List Char) : List Char :=
  if cs.getLast? = some '\n' then cs.dropLast else cs

/-- A class name: letters, digits, bars and hyphens, not beginning with a digit. -/
def isName : List Char → Bool
  | [] => false
  | c :: cs =>
    (c.isAlpha || c = '_' || c = '-') && cs.all fun c => c.isAlphanum || c = '_' || c = '-'

/-- Whether three digits stand in a row. -/
def hasThreeDigits : List Char → Bool
  | a :: b :: c :: rest =>
    (a.isDigit && b.isDigit && c.isDigit) || hasThreeDigits (b :: c :: rest)
  | _ => false

/-- Whether a name ends in at least five letters and digits after two bars, or consists of them
after one. -/
def hasHash (cs : List Char) : Bool :=
  let back := cs.reverse
  5 ≤ (back.takeWhile Char.isAlphanum).length &&
    match back.dropWhile Char.isAlphanum with
    | ['_'] => true
    | '_' :: '_' :: _ => true
    | _ => false

/-- Whether a name was made up by a tool. -/
def isGenerated (cs : List Char) : Bool :=
  hasThreeDigits cs || hasHash cs ||
    ["css-", "sc-", "jsx-"].any fun start => start.toList.isPrefixOf cs

/-- Whether a class counts. -/
def isStable (token : String) : Bool :=
  token.length ≤ maxLength && isName (body token.toList) && !isGenerated (body token.toList)

/-- Items without repetitions, in order. -/
def sorted (items : List String) : List String :=
  (items.mergeSort fun a b => decide (a ≤ b)).eraseReps

/-- The signature of an element; one without a tag has none. -/
def of (tag : String) (classes : List String) : String :=
  let tag := Text.trim (Text.lower tag)
  if tag.isEmpty then ""
  else
    let stable := (sorted (classes.filter isStable)).take maxClasses
    tag ++ String.join (stable.map ("." ++ ·))

end BrowserFlow.Signature
