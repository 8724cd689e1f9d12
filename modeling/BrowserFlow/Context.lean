import BrowserFlow.Failure
import BrowserFlow.Json.Text

/-!
# Contexts

What the steps of a run have stored, by name. A context is kept as JSON text. What is read back may
be an object or a list of pairs; a pair is anything with two items.
-/

namespace BrowserFlow.Context

/-- The JSON text of a context. -/
def toJson (values : Table Value) : String :=
  Json.text .line (.record values)

/-- The pair at some place of a list of pairs. -/
def pairAt (place : Nat) (item : Value) : Except Fault (Value × Value) :=
  match item.members with
  | .error _ =>
    .error (.kind s!"cannot convert dictionary update sequence element #{place} to a sequence")
  | .ok [key, value] =>
    if key.isKey then .ok (key, value) else .error (.kind s!"unhashable type: '{key.kindName}'")
  | .ok items => .error (.invalid
      s!"dictionary update sequence element #{place} has length {items.length}; 2 is required")

/-- The entries of a list of pairs, put after those that are there. -/
def entriesOf (place : Nat) (entries : List (Value × Value)) :
    List Value → Except Fault (List (Value × Value))
  | [] => .ok entries
  | item :: rest => do
    let (key, value) ← pairAt place item
    entriesOf (place + 1) (Value.putEntry entries key value) rest

/-- The context of a JSON text, as a mapping; the empty text has none. -/
def ofJson (text : String) : Except Fault Value := do
  if text.isEmpty then return .map []
  match ← (Json.read text).mapError Json.ReadError.toFault with
  | .map entries => return .map entries
  | v => return .map (← entriesOf 0 [] (← v.members))

end BrowserFlow.Context
