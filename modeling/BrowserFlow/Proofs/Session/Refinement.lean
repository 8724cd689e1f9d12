import BrowserFlow.Proofs.Text.Words
import BrowserFlow.Session.Run

/-!
# Refined instructions

An instruction that is refined takes up what the last script of the attempt returned. The keywords
are looked for in the whole of it, so the text of a page is classified along with what was
instructed. Each classification of a refined instruction is put together from those of its parts,
and can only be raised by what the page returned: from this follows exactly when two attempts lead
to instructions that are classified alike.
-/

namespace BrowserFlow

/-- What the keywords make of an instruction. -/
structure Classification where
  extraction : Bool
  bulk : Bool
  format : DataFormat
  deriving Repr, DecidableEq

namespace DataFormat

/-- The format for two texts of which each asks for one. -/
def join : DataFormat → DataFormat → DataFormat
  | csv, _ => csv
  | _, csv => csv
  | text, _ => text
  | _, text => text
  | json, json => json

/-- Further texts make no difference to the format exactly if they ask for the same, or for nothing
that stands above what is asked for already. -/
theorem join_eq_iff {f g h : DataFormat} :
    f.join g = f.join h ↔ f = csv ∨ g = h ∨ f = text ∧ g ≠ csv ∧ h ≠ csv := by
  cases f <;> cases g <;> cases h <;> decide

/-- The format, by which of the words occur. -/
def ofWords (asksCsv asksText : Bool) : DataFormat :=
  if asksCsv then csv else if asksText then text else json

theorem join_ofWords (a b c d : Bool) :
    (ofWords a b).join (ofWords c d) = ofWords (a || c) (b || d) := by
  cases a <;> cases b <;> cases c <;> cases d <;> rfl

theorem whole_csv : Text.Whole ["csv", "spreadsheet", "excel"] := by
  unfold Text.Whole
  decide +kernel

theorem whole_text : Text.Whole ["text", "plain", "list"] := by
  unfold Text.Whole
  decide +kernel

theorem detect_eq_ofWords (s : String) : detect s =
    ofWords (Text.includesWord (Text.lower s) ["csv", "spreadsheet", "excel"])
      (Text.includesWord (Text.lower s) ["text", "plain", "list"]) :=
  rfl

theorem detect_blank (s t : String) : detect (s ++ " " ++ t) = (detect s).join (detect t) := by
  simp only [detect_eq_ofWords, Text.includesWord_blank s t whole_csv,
    Text.includesWord_blank s t whole_text, join_ofWords]

theorem detect_closing (s : String) {c : Char} (hc : Text.Closing c) :
    detect (s.push c) = detect s := by
  simp only [detect_eq_ofWords, Text.includesWord_closing s whole_csv hc,
    Text.includesWord_closing s whole_text hc]

end DataFormat

namespace Classification

/-- What is said by two texts together. -/
def join (c d : Classification) : Classification where
  extraction := c.extraction || d.extraction
  bulk := c.bulk || d.bulk
  format := c.format.join d.format

/-- What is said by no text. -/
def plain : Classification where
  extraction := false
  bulk := false
  format := .json

@[simp]
theorem join_plain (c : Classification) : c.join plain = c := by
  obtain ⟨extraction, bulk, format⟩ := c
  cases format <;> simp [join, plain, DataFormat.join]

end Classification

namespace Intent

variable (k : Keywords)

/-- What the keywords make of an instruction. -/
def classify (intent : String) : Classification where
  extraction := isExtraction k intent
  bulk := isBulk k intent
  format := .detect intent

/-- A blank keeps two texts apart. -/
theorem classify_blank (s t : String) :
    classify k (s ++ " " ++ t) = (classify k s).join (classify k t) := by
  simp only [classify, Classification.join, isExtraction, isBulk, words_blank, List.any_append,
    DataFormat.detect_blank]

theorem classify_closing (s : String) {c : Char} (hc : Text.Closing c) :
    classify k (s.push c) = classify k s := by
  simp only [classify, isExtraction, isBulk, words_closing s hc, DataFormat.detect_closing s hc]

end Intent

namespace Session

open Intent (Keywords classify)

variable (k : Keywords) (intent : String) (text : Option String)

/-- What an attempt adds to the classification of the instruction refined after it: what is said by
the quotation of its last script, if that returned something. -/
def quotation (a : Attempt) : Classification :=
  match a.report.bind Extraction.snippet? with
  | some snippet => (classify k "(Previous attempt extracted:").join (classify k snippet)
  | none => .plain

/-- What is said by an instruction and the text added to it, without the quotation. -/
def instructed (text : String) : Classification :=
  (classify k intent).join (classify k text)

/-- A refined instruction without the blanks between its parts. -/
theorem refine_given {added : String} (a : Attempt) (h : given? text = some added) :
    refine intent text a =
      match a.report.bind Extraction.snippet? with
      | some snippet => intent.push '.' ++ " " ++ added ++ " " ++
          ("(Previous attempt extracted:" ++ " " ++ snippet.push ')')
      | none => intent.push '.' ++ " " ++ added := by
  unfold refine
  rw [h]
  apply String.toList_injective
  cases a.report.bind Extraction.snippet? <;> simp

/-- The parts of a refined instruction are classified one by one. -/
theorem classify_refine {added : String} (a : Attempt) (h : given? text = some added) :
    classify k (refine intent text a) = (instructed k intent added).join (quotation k a) := by
  have hstop := Intent.classify_closing k intent Text.closing_stop
  rw [refine_given intent text a h, quotation, instructed]
  cases a.report.bind Extraction.snippet? with
  | none => simp only [Intent.classify_blank, hstop, Classification.join_plain]
  | some snippet =>
    simp only [Intent.classify_blank, Intent.classify_closing k snippet Text.closing_bracket, hstop]

theorem refine_of_not_given (a : Attempt) (h : given? text = none) :
    refine intent text a = intent := by
  simp [refine, h]

/-- After two attempts the refined instructions are classified alike exactly if no text was given,
in which case the instruction stays as it is, or if for each of the three classifications what was
instructed decides by itself, or what was quoted from the page says the same. -/
theorem refine_alike_iff (a b : Attempt) :
    classify k (refine intent text a) = classify k (refine intent text b) ↔
      ∀ added, given? text = some added →
        ((instructed k intent added).extraction = true ∨
          (quotation k a).extraction = (quotation k b).extraction) ∧
        ((instructed k intent added).bulk = true ∨
          (quotation k a).bulk = (quotation k b).bulk) ∧
        ((instructed k intent added).format = .csv ∨
          (quotation k a).format = (quotation k b).format ∨
          (instructed k intent added).format = .text ∧
            (quotation k a).format ≠ .csv ∧ (quotation k b).format ≠ .csv) := by
  have hor : ∀ x y z : Bool, (x || y) = (x || z) ↔ x = true ∨ y = z := by decide
  cases hgiven : given? text with
  | none => simp [refine_of_not_given intent text _ hgiven]
  | some added =>
    rw [classify_refine k intent text a hgiven, classify_refine k intent text b hgiven,
      Classification.join, Classification.join, Classification.mk.injEq, hor, hor,
      DataFormat.join_eq_iff]
    constructor
    · rintro halike _ ⟨⟩
      exact halike
    · intro halike
      exact halike added rfl

/-- An attempt without what its steps returned from the page. -/
def unread (a : Attempt) : Attempt :=
  { a with report := a.report.map fun r =>
      { r with steps := r.steps.map fun s => { s with output := none } } }

/-- An attempt whose only step has read a list off a page. -/
def reading (items : List String) : Attempt :=
  { intent := "look"
    document := "- evaluate: a"
    report := some (.ofSteps
      [{ number := 1
         kind := "evaluate"
         success := true
         durationMs := 0
         output := some (Extraction.summary (.list (items.map .text))) }] 0 1 false) }

theorem unread_reading (items others : List String) :
    unread (reading items) = unread (reading others) := by
  simp only [unread, reading, Report.ofSteps, Option.map_some, List.map_cons, List.map_nil,
    List.countP_cons, List.length_cons]

/-- The word `list` on a page makes an instruction that asks for nothing one that asks for data, for
many items, and for text. -/
theorem not_alike_listed :
    unread (reading ["list"]) = unread (reading ["zzzz"]) ∧
      ¬ classify {} (refine "look" (some "again") (reading ["list"])) =
        classify {} (refine "look" (some "again") (reading ["zzzz"])) := by
  refine ⟨unread_reading _ _, ?_⟩
  decide +kernel

end Session

end BrowserFlow
