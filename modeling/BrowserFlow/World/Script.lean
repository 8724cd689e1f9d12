import BrowserFlow.Value.Basic
import BrowserFlow.World.Basic

/-!
# Scripted worlds

A world can be described by a value. The description of a page has a field for each of its parts,
and a part without one keeps what it was. The model answers with the texts of a list: an item of it
may also be an error, `$raise`, or a text that comes after a time, `$delay_ms`.
-/

namespace BrowserFlow

namespace Trouble

def ofValue (v : Value) : Trouble :=
  let message := (v.field "message").textOr ""
  match (v.field "type").textOr "error" with
  | "assert" => .unmet message
  | "timeout" => .timeout message
  | "hang" => .hang
  | _ => .error message

end Trouble

namespace Element

def ofValue (v : Value) : Element :=
  { text := (v.field "text").textOr ""
    value := (v.field "value").present?
    visible := (v.field "visible").boolOr true
    attributes := (v.field "attrs").table
    properties := (v.field "props").table
    silent := (v.field "text_error").truthy
    leadsTo := (v.field "goto").present? }

end Element

namespace ScriptResult

def ofValue : Value → ScriptResult
  | .map [(.text "$raise", message)] => .error (message.textOr "")
  | v => .value v

end ScriptResult

namespace Page

/-- A page with the parts that a description has. -/
def described (p : Page) (v : Value) : Page :=
  let tableOf {α : Type} (read : Value → α) (x : Value) : Table α :=
    x.table.map fun (name, item) => (name, read item)
  { p with
    url := v.part "url" (Value.textOr "") p.url
    title := v.part "title" (Value.textOr "") p.title
    elements := v.part "elements" (tableOf fun es => es.listed.map Element.ofValue) p.elements
    troubles := v.part "faults" (tableOf Trouble.ofValue) p.troubles
    delays := v.part "delays" (tableOf Value.natural) p.delays
    results := v.part "evaluate" (fun rs => rs.listed.map ScriptResult.ofValue) p.results
    digest := v.part "digest" id p.digest }

end Page

namespace ModelReply

/-- A reply; null has no text. -/
def ofValue (v : Value) : ModelReply :=
  match v.field? "$raise", v.field? "$delay_ms" with
  | some message, _ => .error (message.textOr "")
  | none, some ms => .delayed ms.natural (v.field "text").text?
  | none, none => .content v.text?

end ModelReply

namespace World

/-- The world that a description and the lines at the console give. -/
def scripted (v : Value) (inputs : List String) : World :=
  { page := ({} : Page).described (v.field "page")
    replies := (v.field "responses").listed.map ModelReply.ofValue
    inputs }

end World

end BrowserFlow
