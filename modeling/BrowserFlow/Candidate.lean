import BrowserFlow.Decimal.Binary
import BrowserFlow.Digest.Basic
import BrowserFlow.Selector.Basic
import BrowserFlow.Text.Case
import BrowserFlow.Value.Basic

/-!
# Candidates

Selectors that could take the place of one that matched nothing. Each has been tried on the page;
how many elements it matched and what they look like gives it a score between zero and one, in
hundredths. Where many items are wanted a selector should match many alike elements; where one is
wanted it should match exactly one.
-/

namespace BrowserFlow

structure Candidate where
  selector : String
  /-- The number of elements that it matches. -/
  count : Int
  confidence : Float
  specificity : Int := 0
  /-- Texts of some of the elements. -/
  samples : List String := []

namespace Candidate

def toValue (c : Candidate) : Value :=
  .record [("selector", .text c.selector), ("element_count", .int c.count),
    ("confidence_score", .float c.confidence), ("specificity", .int c.specificity),
    ("samples", .texts c.samples)]

/-- The candidate of a record. -/
def ofRecord (v : Value) : Candidate :=
  { selector := (v.field "selector").textOr ""
    count := (v.field "element_count").wholeOr 0
    confidence := (v.field "confidence_score").floatOr 0
    specificity := (v.field "specificity").wholeOr 0
    samples := (v.field "samples").listedTexts }

/-! ## Scores -/

/-- Words in the names of what holds an item of data. -/
def containerWords : List String :=
  ["item", "card", "row", "result", "title", "post", "article", "entry"]

/-- Tags that say nothing about what they hold. -/
def genericTags : List String :=
  ["div", "span"]

/-- The mean of some numbers. -/
def mean (xs : List Float) : Float :=
  xs.foldl (· + ·) 0 / Float.ofNat xs.length

/-- Whether some texts are of about the same length: the variance of the lengths is less than
three tenths of their mean. -/
def areAlike (samples : List String) : Bool :=
  let lengths := samples.map fun s => Float.ofNat s.length
  let m := mean lengths
  2 ≤ samples.length && mean (lengths.map fun n => (n - m) * (n - m)) < m * 0.3

/-- What the number of matches adds to the score where many items are wanted. -/
def countBonus (count : Int) : Int :=
  if 10 ≤ count then 20
  else if 5 ≤ count then 10
  else if 2 ≤ count then 5
  else -10

/-- The score where many items are wanted. -/
def bulkScore (selector : String) (count : Int) (samples : List String) : Nat :=
  let lowered := Text.lower selector
  let score := 50 + countBonus count + (if areAlike samples then 10 else 0) +
    (if containerWords.any (Text.includes lowered) then 10 else 0) -
    (if genericTags.contains lowered then 30 else 0)
  (min 100 (max 0 score)).toNat

/-- The score where one item is wanted. -/
def singleScore (count : Int) : Nat :=
  if count == 1 then 90 else if count ≤ 3 then 60 else 40

/-- The score of a selector in hundredths. -/
def score (selector : String) (count : Int) (samples : List String) (bulk : Bool) : Nat :=
  if count ≤ 0 then 0
  else if bulk then bulkScore selector count samples
  else singleScore count

/-- A number of hundredths. -/
def ofHundredths (n : Nat) : Float :=
  Float.ofScientific n true 2

/-- A selector that was tried, with its score. -/
def tried (selector : String) (count : Int) (samples : List String) (bulk : Bool) : Candidate :=
  { selector
    count
    confidence := ofHundredths (score selector count samples bulk)
    specificity := Selector.specificity selector
    samples }

/-! ## Order -/

/-- The score rounded to hundredths. -/
def hundredths (c : Candidate) : Int :=
  match Decimal.Binary.ofFloat c.confidence with
  | .finite negative m e =>
    let n : Int := Decimal.inPlaces 2 m e
    if negative then -n else n
  | .infinite negative => if negative then -(Decimal.beyond : Int) else Decimal.beyond
  | .nan => 0

/-- Whether a candidate may stand before another: those with matches first, then by score, by
specificity and by the number of matches. -/
def precedes (c d : Candidate) : Bool :=
  if (c.count == 0) != (d.count == 0) then d.count == 0
  else if c.hundredths != d.hundredths then d.hundredths < c.hundredths
  else if c.specificity != d.specificity then d.specificity < c.specificity
  else d.count ≤ c.count

/-- Candidates in order; equal ones stay in the order in which they were. -/
def sort (cs : List Candidate) : List Candidate :=
  cs.mergeSort precedes

/-! ## Choice and description -/

/-- The selectors to be tried: the parts of the one that failed, then the patterns of the page. -/
def selectors (digest : Option Digest) (failed : Option String) (limit : Int) : List String :=
  let parts := ((failed.map Selector.parts).getD [])
  let patterns := ((digest.map fun d => d.patterns.map (·.selector)).getD [])
  let distinct := (parts ++ patterns).foldl (fun acc s =>
    if s.isEmpty || acc.contains s then acc else acc ++ [s]) []
  upTo limit distinct

/-- A candidate as a line for the model, with the first of its samples. -/
def description (c : Candidate) : String :=
  let sample := match c.samples with
    | s :: _ => " e.g. \"" ++ Text.clip 60 s ++ "\""
    | [] => ""
  s!"  {c.selector} ({c.count} elements, confidence " ++
    Decimal.fixedPlaces 2 c.confidence ++ ")" ++ sample

/-- The first of some candidates as a text for the model. -/
def descriptions (cs : List Candidate) (limit : Int := 5) : String :=
  "\n".intercalate ((upTo limit cs).map description)

end Candidate

end BrowserFlow
