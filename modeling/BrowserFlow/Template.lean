import BrowserFlow.Text.CharClass
import BrowserFlow.Text.Scan
import BrowserFlow.Value.Literal

/-!
# Placeholders

Texts inside a value may hold placeholders `${NAME}`. Filling them in goes over each text once,
from left to right: a placeholder whose name is bound to something other than null is replaced by
the plain form of its value, and what was inserted is not looked at again. Everything else stays.
-/

namespace BrowserFlow

/-- Values by variable name. -/
abbrev Env := Table Value

namespace Template

/-- The name of the placeholder at the front, and the length of the placeholder. -/
def placeholder? : List Char → Option (List Char × Nat)
  | '$' :: '\x7b' :: cs =>
    let name := cs.takeWhile Text.isWordChar
    match name.isEmpty, cs.dropWhile Text.isWordChar with
    | false, '\x7d' :: _ => some (name, name.length + 3)
    | _, _ => none
  | _ => none

/-- The text that a variable stands for; null stands for nothing. -/
def binding? (env : Env) (name : String) : Option String :=
  match env.get? name with
  | none | some .null => none
  | some v => some v.plainText

/-- The placeholder at the front with what replaces it, if its name is bound. -/
def fillStep (env : Env) (cs : List Char) : Option (List Char × Nat) := do
  let (name, length) ← placeholder? cs
  return (((binding? env (String.ofList name)).map String.toList).getD (cs.take length), length)

/-- A text with its placeholders filled in. -/
def fillText (env : Env) (s : String) : String :=
  Text.replaceAll (fillStep env) s

mutual

/-- A value with the placeholders of its texts filled in. Keys are not touched. -/
def fill (env : Env) : Value → Value
  | .text s => .text (fillText env s)
  | .list items => .list (fillItems env items)
  | .map entries => .map (fillEntries env entries)
  | v => v
termination_by structural v => v

def fillItems (env : Env) : List Value → List Value
  | [] => []
  | v :: vs => fill env v :: fillItems env vs
termination_by structural vs => vs

def fillEntries (env : Env) : List (Value × Value) → List (Value × Value)
  | [] => []
  | (k, v) :: es => (k, fill env v) :: fillEntries env es
termination_by structural es => es

end

/-- Variables from texts of the form `KEY=VALUE`. Blanks around a key are dropped, a text without
a key or without the sign is ignored, and the last of several values counts. -/
def assignments (pairs : List String) : Table String :=
  pairs.foldl (fun env pair =>
    match Text.cutAt '=' pair with
    | (key, some value) =>
      let key := Text.trim key
      if key.isEmpty then env else env.put key value
    | (_, none) => env) []

end Template

end BrowserFlow
