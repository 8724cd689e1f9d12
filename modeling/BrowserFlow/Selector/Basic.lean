import BrowserFlow.Text.CharClass
import BrowserFlow.Text.Scan

/-!
# Selectors

CSS selectors as the steps write them. Normalising brings the values of attribute selectors into
double quotes, whether they were unquoted, quoted, or quoted behind backslashes, and leaves
everything else as it is. A selector's specificity ranks it, and its parts are what is tried when
the whole of it matches nothing.
-/

namespace BrowserFlow.Selector

def isQuote (c : Char) : Bool :=
  c = '\'' || c = '"'

/-- An attribute selector with its value in double quotes. -/
def attributeText (name value : List Char) : List Char :=
  '[' :: name ++ '=' :: '"' :: value ++ ['"', ']']

/-- The name of an attribute after its bracket, and what follows the equals sign. -/
def attributeName? (cs : List Char) : Option (List Char × List Char) :=
  let isEnd := fun c : Char => c = '=' || c = ']'
  let name := cs.takeWhile (!isEnd ·)
  match name.isEmpty, cs.dropWhile (!isEnd ·) with
  | false, '=' :: rest => some (name, rest)
  | _, _ => none

/-- `[name=\'value\']` at the front: the attribute selector it stands for and its length. -/
def escapedAttribute? : List Char → Option (List Char × Nat)
  | '[' :: cs => do
    let (name, rest) ← attributeName? cs
    match rest with
    | '\\' :: q :: rest =>
      if !isQuote q then none
      else
        let run := rest.takeWhile (!isQuote ·)
        match run.getLast?, rest.dropWhile (!isQuote ·) with
        | some '\\', _ :: ']' :: _ =>
          if run.length < 2 then none
          else some (attributeText name run.dropLast, name.length + run.length + 6)
        | _, _ => none
    | _ => none
  | _ => none

/-- An optional quote at the front, and the rest. -/
def optionalQuote : List Char → List Char × List Char
  | [] => ([], [])
  | c :: cs => if isQuote c then ([c], cs) else ([], c :: cs)

/-- `[name=value]` at the front, with any quote or none at each end of the value: what replaces
it and its length. Quotes that differ are left alone. -/
def plainAttribute? : List Char → Option (List Char × Nat)
  | '[' :: cs => do
    let (name, rest) ← attributeName? cs
    let (open?, rest) := optionalQuote rest
    let isEnd := fun c : Char => isQuote c || c = ']'
    let value := rest.takeWhile (!isEnd ·)
    let (close?, rest) := optionalQuote (rest.dropWhile (!isEnd ·))
    match value.isEmpty, rest with
    | false, ']' :: _ =>
      let written := '[' :: name ++ '=' :: open? ++ value ++ close? ++ [']']
      some (if open? = close? then attributeText name value else written, written.length)
    | _, _ => none
  | _ => none

/-- A selector without surrounding blanks and with the values of its attribute selectors in double
quotes. -/
def normalize (s : String) : String :=
  Text.replaceAll plainAttribute? (Text.replaceAll escapedAttribute? (Text.trim s))

/-- A character of a class name or an identifier. -/
def isNameChar (c : Char) : Bool :=
  c.isAlphanum || c = '_' || c = '-'

/-- A mark and the name after it. -/
def marked? (mark : Char) : List Char → Option (String × Nat)
  | c :: cs =>
    let name := cs.takeWhile isNameChar
    if c = mark && !name.isEmpty then some (String.ofList (mark :: name), name.length + 1) else none
  | [] => none

/-- An attribute selector with something between its brackets. -/
def bracketed? : List Char → Option (String × Nat)
  | '[' :: cs =>
    let inner := cs.takeWhile (· != ']')
    match inner.isEmpty, cs.dropWhile (· != ']') with
    | false, _ :: _ => some (String.ofList ('[' :: inner ++ [']']), inner.length + 2)
    | _, _ => none
  | _ => none

def classes (s : String) : List String :=
  Text.findAll (marked? '.') s

def identifiers (s : String) : List String :=
  Text.findAll (marked? '#') s

def attributes (s : String) : List String :=
  Text.findAll bracketed? s

/-- The element name at the beginning, in lower case. -/
def tag? (s : String) : Option String :=
  match Text.trimChars s.toList with
  | c :: cs =>
    if c.isAlpha then
      some (String.ofList ((c :: cs.takeWhile Char.isAlphanum).map Char.toLower))
    else none
  | [] => none

/-- Three for an identifier, two for an attribute, one for a class, zero for anything else. -/
def specificity (s : String) : Nat :=
  if !(identifiers s).isEmpty then 3
  else if s.toList.contains '[' then 2
  else if !(classes s).isEmpty then 1
  else 0

/-- Classes, identifiers, attributes and the element name of a selector. -/
def parts (s : String) : List String :=
  classes s ++ identifiers s ++ attributes s ++ (tag? s).toList

end BrowserFlow.Selector
