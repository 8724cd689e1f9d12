import BrowserFlow.Calendar
import BrowserFlow.Value.Whole

/-!
# Why a YAML text gives no value

Most causes are faults of the document. A few are values that the document spells out but that do
not exist, such as the 45th of a month; those are kept apart, because a reader of documents
reports them differently.
-/

namespace BrowserFlow.Yaml

inductive Error
  /-- The text is not a YAML document, or its tags do not fit. -/
  | malformed
  /-- An escape names a code point that does not exist; `huge` if it exceeds 31 bits. -/
  | codePoint (huge : Bool)
  /-- A date or a time that does not exist. -/
  | calendar (cause : CalendarError)
  /-- A text tagged as a date that has no such form. -/
  | notAMoment
  /-- A text tagged as a whole number that is none. -/
  | whole (cause : WholeError)
  /-- A text tagged as a double that is none, in its literal form. -/
  | double (literal : String)
  /-- An empty text tagged as a number. -/
  | noNumber
  /-- A text tagged as a truth value that is none. -/
  | truth
  deriving Repr, DecidableEq

end BrowserFlow.Yaml
