import BrowserFlow.Failure
import BrowserFlow.Json.Text

/-!
# Digests of pages

What a page looks like, in little space: how often which patterns of elements occur, some of the
texts, and the names of attributes. A digest has to fit a budget of bytes; what is worth least is
left out first.
-/

namespace BrowserFlow

/-!
## Beginnings of a list

A limit that counts from the front, or, if it is negative, from the end.
-/

/-- The first `limit` items of a list; a negative limit leaves out that many items at the end. -/
def upTo {α : Type} (limit : Int) (xs : List α) : List α :=
  match limit with
  | .ofNat n => xs.take n
  | .negSucc n => xs.take (xs.length - (n + 1))

@[simp] theorem upTo_natCast {α : Type} (n : Nat) (xs : List α) : upTo (n : Int) xs = xs.take n :=
  rfl

/-- A beginning is a prefix. -/
theorem upTo_isPrefix {α : Type} (limit : Int) (xs : List α) : upTo limit xs <+: xs := by
  cases limit <;> exact List.take_prefix _ _

/-- All of a list that is no longer than the limit. -/
theorem upTo_of_length_le {α : Type} {limit : Int} {xs : List α} (h : (xs.length : Int) ≤ limit) :
    upTo limit xs = xs := by
  obtain ⟨n, rfl⟩ := Int.eq_ofNat_of_zero_le (Int.le_trans (Int.natCast_nonneg xs.length) h)
  rw [upTo_natCast]
  exact List.take_of_length_le (by omega)

/-! ## The digest -/

/-- A selector and the number of elements that it fits. -/
structure Pattern where
  selector : String
  count : Int
  deriving Repr, DecidableEq, Inhabited

structure Digest where
  url : String
  title : String
  patterns : List Pattern := []
  texts : List String := []
  attributes : List String := []
  /-- The time at which it was made. -/
  timestamp : Value := .float 0
  deriving Inhabited

namespace Pattern

def toValue (p : Pattern) : Value :=
  .record [("selector", .text p.selector), ("count", .int p.count)]

/-- The record of a pattern, whatever its fields hold. -/
def completed (v : Value) : Except Fault Value := do
  let selector ← v.required "selector"
  let count ← v.required "count"
  return .record [("selector", selector), ("count", count)]

/-- A pattern from its record. A count that is no whole number is zero. -/
def ofRecord (v : Value) : Pattern :=
  ⟨(v.field "selector").plainText, match v.field "count" with
    | .int n => n
    | _ => 0⟩

end Pattern

namespace Digest

def toValue (d : Digest) : Value :=
  .record [("page_url", .text d.url), ("page_title", .text d.title),
    ("element_patterns", .list (d.patterns.map Pattern.toValue)), ("sample_texts", .texts d.texts),
    ("attributes", .texts d.attributes), ("timestamp", d.timestamp)]

/-- The record of a digest with all of its fields, whatever they hold; what is missing is empty. -/
def completed (v : Value) : Except Fault Value := do
  let entries ← match v with
    | .map entries => pure entries
    | v => throw (.part v.kindName "get")
  let get := fun key default => (Value.lookup entries (.text key)).getD default
  let patterns ← (← (get "element_patterns" (.list [])).members).mapM Pattern.completed
  let texts ← (get "sample_texts" (.list [])).members
  let attributes ← (get "attributes" (.list [])).members
  return .record [("page_url", get "page_url" (.text "")),
    ("page_title", get "page_title" (.text "")), ("element_patterns", .list patterns),
    ("sample_texts", .list texts), ("attributes", .list attributes),
    ("timestamp", get "timestamp" (.float 0))]

/-- A digest from its record; what is missing is empty, and what is no text is written as one. -/
def ofValue (v : Value) : Except Fault Digest := do
  let v ← completed v
  let patterns ← (v.field "element_patterns").members
  let texts ← (v.field "sample_texts").members
  let attributes ← (v.field "attributes").members
  return { url := (v.field "page_url").plainText
           title := (v.field "page_title").plainText
           patterns := patterns.map Pattern.ofRecord
           texts := texts.map Value.plainText
           attributes := attributes.map Value.plainText
           timestamp := v.field "timestamp" }

/-- The bytes that a digest takes as JSON. -/
def size (d : Digest) : Nat :=
  (Json.text .line d.toValue).utf8ByteSize

/-- The length to which a title is cut before anything else is cut. -/
def titleLength : Nat := 80

/-- A digest with a little less in it: without its last text, or else its last pattern, or else its
last attribute; then with a shorter title, and last with as many characters less in its address or
its title as there are bytes too many. Nothing is left to be taken from an empty one. -/
def smaller? (budget : Int) (d : Digest) : Option Digest :=
  let excess := ((d.size : Int) - budget).toNat
  let cut := fun s : String => Text.clip (s.length - excess) s
  if !d.texts.isEmpty then some { d with texts := d.texts.dropLast }
  else if !d.patterns.isEmpty then some { d with patterns := d.patterns.dropLast }
  else if !d.attributes.isEmpty then some { d with attributes := d.attributes.dropLast }
  else if titleLength < d.title.length then some { d with title := Text.clip titleLength d.title }
  else if !d.url.isEmpty then some { d with url := cut d.url }
  else if !d.title.isEmpty then some { d with title := cut d.title }
  else none

/-- How much can still be taken from a digest. -/
def extent (d : Digest) : Nat :=
  d.texts.length + d.patterns.length + d.attributes.length + d.title.length + d.url.length

/-- Takes from a digest at most `steps` times until it fits. -/
def fitIn (budget : Int) : (steps : Nat) → Digest → Digest
  | 0, d => d
  | steps + 1, d =>
    if (d.size : Int) ≤ budget then d
    else match smaller? budget d with
      | some e => fitIn budget steps e
      | none => d

/-- A digest that fits the budget, or from which nothing can be taken any more. -/
def fit (budget : Int) (d : Digest) : Digest :=
  fitIn budget (d.extent + 1) d

/-- A digest as a text for the model. -/
def description (d : Digest) (limit : Int := 10) : String :=
  let patterns := (upTo limit d.patterns).map fun p => s!"  {p.selector} ({p.count} elements)"
  let texts := (upTo limit d.texts).map fun t => s!"  \"{t}\""
  let attributes :=
    if d.attributes.isEmpty then []
    else ["", "Available Attributes:", "  " ++ ", ".intercalate (d.attributes.take 20)]
  "\n".intercalate (["URL: " ++ d.url, "Title: " ++ d.title, "", "Top Patterns:"] ++ patterns ++
    ["", "Sample Text Content:"] ++ texts ++ attributes)

end Digest

end BrowserFlow
