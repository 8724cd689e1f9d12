import BrowserFlow.Candidate
import BrowserFlow.World.Basic

/-!
# Trying selectors on the page

Every candidate is tried once: how many elements it matches, and the texts of the first of them. A
selector that the page refuses counts as one that matches nothing, and a text that cannot be read is
left out.
-/

namespace BrowserFlow.Ranking

/-- How many elements are read. -/
def sampleSize : Int := 5

/-- The characters of a text that are kept. -/
def sampleLength : Nat := 100

/-- What is kept of the text of an element. -/
def kept (answer : Except Fault Value) : List String :=
  match answer with
  | .ok (.text s) =>
    let text := Text.trim s
    if text.isEmpty then [] else [Text.clip sampleLength text]
  | _ => []

/-- The texts of the elements at some places. -/
def readTexts (selector : String) : List Nat → Effect Fault World (List String)
  | [] => return []
  | index :: rest => do
    let answer ← Effect.attempt (World.call none (.innerText (.text selector) index))
    let others ← readTexts selector rest
    return kept answer ++ others

/-- Tries a selector: the number of its matches and the texts of the first of them. -/
def probe (sampleSize : Int) (selector : String) : Effect Fault World (Int × List String) := do
  match ← Effect.attempt (World.call none (.count (.text selector))) with
  | .ok (.int count) =>
    let texts ← readTexts selector (List.range (min sampleSize count).toNat)
    return (count, texts)
  | _ => return (0, [])

/-- Tries a selector and scores it. -/
def tryOne (sampleSize : Int) (bulk : Bool) (selector : String) : Effect Fault World Candidate := do
  let (count, samples) ← probe sampleSize selector
  return Candidate.tried selector count samples bulk

/-- A candidate without blanks at its ends; nothing stands for the empty one. -/
def cleaned (candidate : Value) : Except Fault String :=
  match candidate with
  | .text s => .ok (Text.trim s)
  | v => if v.truthy then .error (.part v.kindName "strip") else .ok ""

/-- Tries candidates one after the other, each of them once. -/
def tryAll (sampleSize : Int) (bulk : Bool) (seen : List String) :
    List Value → Effect Fault World (List Candidate)
  | [] => return []
  | candidate :: rest => do
    let selector ← Effect.lift (cleaned candidate)
    if selector.isEmpty || seen.contains selector then tryAll sampleSize bulk seen rest
    else
      let c ← tryOne sampleSize bulk selector
      let others ← tryAll sampleSize bulk (selector :: seen) rest
      return c :: others

/-- The candidates in the order of their worth. -/
def rank (sampleSize : Int) (bulk : Bool) (candidates : List Value) :
    Effect Fault World (List Candidate) :=
  Candidate.sort <$> tryAll sampleSize bulk [] candidates

/-- How many candidates are tried in place of a selector that matched nothing. -/
def suggestionLimit : Int := 15

/-- Candidates in place of a selector that matched nothing on the page of a digest. -/
def suggest (sampleSize : Int) (digest : Option Digest) (failed : Option String) (bulk : Bool)
    (limit : Int) : Effect Fault World (List Candidate) :=
  rank sampleSize bulk ((Candidate.selectors digest failed limit).map Value.text)

end BrowserFlow.Ranking
