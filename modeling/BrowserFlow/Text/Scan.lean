import BrowserFlow.Text.Word

/-!
# Scanning

Patterns are given as steps: what a step finds at the front of the characters, together with how
many characters it took. The functions here apply a step at every place from left to right and go
on behind what was taken, so that finds never overlap. A count of characters still to be skipped
keeps the recursion on the text itself.
-/

namespace BrowserFlow.Text

/-- Replaces every find; `skip` characters belong to an earlier find. -/
def replaceFrom (step : List Char → Option (List Char × Nat)) (skip : Nat) :
    List Char → List Char
  | [] => []
  | c :: cs =>
    match skip with
    | skip + 1 => replaceFrom step skip cs
    | 0 =>
      match step (c :: cs) with
      | some (replacement, taken) => replacement ++ replaceFrom step (taken - 1) cs
      | none => c :: replaceFrom step 0 cs

/-- Replaces what a step finds, from left to right. -/
def replaceAll (step : List Char → Option (List Char × Nat)) (s : String) : String :=
  String.ofList (replaceFrom step 0 s.toList)

/-- All finds; `skip` characters belong to an earlier one. -/
def findAllFrom {α : Type} (step : List Char → Option (α × Nat)) (skip : Nat) :
    List Char → List α
  | [] => []
  | c :: cs =>
    match skip with
    | skip + 1 => findAllFrom step skip cs
    | 0 =>
      match step (c :: cs) with
      | some (found, taken) => found :: findAllFrom step (taken - 1) cs
      | none => findAllFrom step 0 cs

/-- What a step finds, from left to right. -/
def findAll {α : Type} (step : List Char → Option (α × Nat)) (s : String) : List α :=
  findAllFrom step 0 s.toList

/-- The first find in some characters. -/
def findFirst? {α : Type} (step : List Char → Option α) : List Char → Option α
  | [] => step []
  | c :: cs =>
    match step (c :: cs) with
    | some found => some found
    | none => findFirst? step cs

/-- The rest of some characters after a beginning. -/
def dropPrefix? : (start cs : List Char) → Option (List Char)
  | [], cs => some cs
  | _ :: _, [] => none
  | p :: ps, c :: cs => if p = c then dropPrefix? ps cs else none

/-- Whether a text begins with another. -/
def beginsWith (s start : String) : Bool :=
  start.toList.isPrefixOf s.toList

/-- Whether some characters occur in a row. -/
def occurs (part : List Char) : List Char → Bool
  | [] => part.isEmpty
  | c :: cs => part.isPrefixOf (c :: cs) || occurs part cs

/-- Whether a text occurs in another. -/
def includes (s part : String) : Bool :=
  occurs part.toList s.toList

/-- Whether a word occurs with no word character on either side; `inWord` tells whether the
character before was one. -/
def wordOccurs (word : List Char) (inWord : Bool) : List Char → Bool
  | [] => false
  | c :: cs =>
    (!inWord && match dropPrefix? word (c :: cs) with
      | some [] => true
      | some (d :: _) => !isWordChar d
      | none => false) ||
    wordOccurs word (isWordChar c) cs

/-- Whether a text holds one of some words as a whole word. -/
def includesWord (s : String) (words : List String) : Bool :=
  words.any fun w => wordOccurs w.toList false s.toList

/-- A text up to the first place of a separator, and what follows it if it is there. -/
def cutAt (separator : Char) (s : String) : String × Option String :=
  let cs := s.toList
  match cs.dropWhile (· != separator) with
  | [] => (s, none)
  | _ :: after => (String.ofList (cs.takeWhile (· != separator)), some (String.ofList after))

/-- The first characters of a text. -/
def clip (n : Nat) (s : String) : String :=
  String.ofList (s.toList.take n)

/-- The pieces of some characters between the places of a separator. -/
def splitChars (separator : Char) : List Char → List (List Char)
  | [] => [[]]
  | c :: cs =>
    if c = separator then [] :: splitChars separator cs
    else match splitChars separator cs with
      | piece :: pieces => (c :: piece) :: pieces
      | [] => [[c]]

/-- The lines of a text. -/
def lines (s : String) : List String :=
  (splitChars '\n' s.toList).map String.ofList

end BrowserFlow.Text
