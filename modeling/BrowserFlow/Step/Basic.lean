import BrowserFlow.Template

/-!
# Steps

What a step does once its notation has been read. A selector and a few options may be any value a
document can hold; whether they make sense shows only on the page. Two views of a step matter
elsewhere: its arguments by name, as they are recorded, and the target that a failure names.
-/

namespace BrowserFlow

/-- Which option of a list is selected. -/
inductive Choice
  | value (s : String)
  | label (s : String)
  | index (n : Int)

/-- A form field and what is filled into it. -/
structure FormField where
  selector : Value
  value : String

inductive Step
  | navigate (url : String) (waitUntil : Value) (timeout : Option Int)
  | click (selector button : Value) (clicks : Int) (timeout : Option Int)
  | typeText (selector : Value) (text : String) (delay : Int) (submit : Bool)
      (timeout : Option Int)
  | waitTime (ms : Int) (timeout : Option Int)
  | waitElement (selector state : Value) (timeout : Option Int)
  | waitUrl (url : String) (timeout : Option Int)
  | screenshot (path : Value) (fullPage : Bool) (format : Value)
  | evaluate (script : String) (format filename : Option String)
  | hover (selector position : Value) (timeout : Option Int)
  | select (selector : Value) (choice : Choice) (timeout : Option Int)
  | fillForm (fields : List FormField) (timeout : Option Int)
  | scrollElement (selector : Value)
  | scrollBy (pixels : Int)
  | scrollTo (percent : Int)
  | assert (selector : Value) (text value : Option String) (visible : Bool)
      (timeout : Option Int)
  | storeElement (name : String) (selector property attributeName : Value)
  | storeScript (name script : String)
  | press (key : String) (selector : Value)
  | back (waitUntil : Value)
  | reload (waitUntil : Value)

/-- The choice as an argument. -/
def Choice.toValue : Choice → Value
  | value s => .text s
  | label s => .record [("label", .text s)]
  | index n => .record [("index", .int n)]

def FormField.toValue (f : FormField) : Value :=
  .record [("selector", f.selector), ("value", .text f.value)]

namespace Step

/-- The time limit as an argument, if one was given. -/
def limit : Option Int → Table Value
  | some n => [("timeout", .int n)]
  | none => []

def optional (name : String) : Option String → Table Value
  | some s => [(name, .text s)]
  | none => []

/-- The arguments of a step by name, in the order in which they are recorded. -/
def arguments : Step → Table Value
  | navigate url waitUntil t => [("url", .text url), ("wait_until", waitUntil)] ++ limit t
  | click s button clicks t =>
    [("selector", s), ("button", button), ("click_count", .int clicks)] ++ limit t
  | typeText s text delay submit t =>
    [("selector", s), ("text", .text text), ("delay", .int delay), ("submit", .bool submit)] ++
      limit t
  | waitTime ms t => [("mode", .text "time"), ("ms", .int ms)] ++ limit t
  | waitElement s state t =>
    [("mode", .text "selector"), ("selector", s), ("state", state)] ++ limit t
  | waitUrl url t => [("mode", .text "url"), ("url", .text url)] ++ limit t
  | screenshot path fullPage format =>
    [("path", path), ("full_page", .bool fullPage), ("type", format)]
  | evaluate script format filename =>
    ("script", .text script) :: optional "format" format ++ optional "filename" filename
  | hover s position t => [("selector", s), ("position", position)] ++ limit t
  | select s choice t => [("selector", s), ("value", choice.toValue)] ++ limit t
  | fillForm fields t => ("fields", .list (fields.map FormField.toValue)) :: limit t
  | scrollElement s => [("selector", s)]
  | scrollBy pixels => [("by", .int pixels)]
  | scrollTo percent => [("to_percent", .int percent)]
  | assert s text value visible t =>
    [("selector", s), ("text", .ofOption .text text), ("value", .ofOption .text value),
      ("visible", .bool visible)] ++ limit t
  | storeElement name s property attributeName =>
    [("name", .text name), ("selector", s), ("property", property),
      ("attribute", attributeName)]
  | storeScript name script => [("name", .text name), ("script", .text script)]
  | press key s => [("key", .text key), ("selector", s)]
  | back waitUntil => [("wait_until", waitUntil)]
  | reload waitUntil => [("wait_until", waitUntil)]

/-- The first of two values that is true, the second if neither is. -/
def firstTrue (a b : Value) : Value :=
  if a.truthy then a else b

/-- The selectors of some form fields, if all of them are texts. -/
def fieldSelectors? (fields : List FormField) : Option (List String) :=
  fields.mapM fun f =>
    match f.selector with
    | .text s => some s
    | _ => none

/-- What a failure of the step names: its selector, its address, or nothing. The fields of a form
can only be named if their selectors are texts. -/
def target? : Step → Option Value
  | navigate url .. => some (.text url)
  | click s .. | typeText s .. | hover s .. | select s .. | assert s .. => some s
  | waitElement s .. => some (firstTrue s .null)
  | waitUrl url _ => some (.text url)
  | waitTime .. => some .null
  | fillForm fields _ => (fieldSelectors? fields).map fun ss => .text (", ".intercalate ss)
  | scrollElement s | storeElement _ s .. | press _ s => some s
  | scrollBy _ | scrollTo _ | storeScript .. => some .null
  | screenshot .. | evaluate .. | back _ | reload _ => some .null

/-- The time that a step was given, if it was given one other than zero. -/
def ownTimeout : Step → Option Int
  | navigate _ _ t | click _ _ _ t | typeText _ _ _ _ t | waitTime _ t | waitElement _ _ t
  | waitUrl _ t | hover _ _ t | select _ _ t | fillForm _ t | assert _ _ _ _ t => t
  | _ => none

/-- The time limit of a step in milliseconds. Waiting for a time has that time on top of the
usual limit. -/
def timeout (usual : Int) : Step → Int
  | waitTime ms _ => ms + usual
  | s =>
    match s.ownTimeout with
    | some t => if t = 0 then usual else t
    | none => usual

def Choice.substitute (env : Env) : Choice → Choice
  | .value s => .value (Template.fillText env s)
  | .label s => .label (Template.fillText env s)
  | .index n => .index n

/-- A step with the placeholders in its texts filled in. -/
def substitute (env : Env) : Step → Step
  | navigate url w t => navigate (Template.fillText env url) (Template.fill env w) t
  | click s b n t => click (Template.fill env s) (Template.fill env b) n t
  | typeText s text d submit t =>
    typeText (Template.fill env s) (Template.fillText env text) d submit t
  | waitTime ms t => waitTime ms t
  | waitElement s state t => waitElement (Template.fill env s) (Template.fill env state) t
  | waitUrl url t => waitUrl (Template.fillText env url) t
  | screenshot p f t => screenshot (Template.fill env p) f (Template.fill env t)
  | evaluate script format filename =>
    evaluate (Template.fillText env script) (format.map (Template.fillText env))
      (filename.map (Template.fillText env))
  | hover s p t => hover (Template.fill env s) (Template.fill env p) t
  | select s c t => select (Template.fill env s) (Choice.substitute env c) t
  | fillForm fields t =>
    fillForm (fields.map fun f =>
      ⟨Template.fill env f.selector, Template.fillText env f.value⟩) t
  | scrollElement s => scrollElement (Template.fill env s)
  | scrollBy n => scrollBy n
  | scrollTo n => scrollTo n
  | assert s text value visible t =>
    assert (Template.fill env s) (text.map (Template.fillText env))
      (value.map (Template.fillText env)) visible t
  | storeElement name s p a =>
    storeElement (Template.fillText env name) (Template.fill env s) (Template.fill env p)
      (Template.fill env a)
  | storeScript name script =>
    storeScript (Template.fillText env name) (Template.fillText env script)
  | press key s => press (Template.fillText env key) (Template.fill env s)
  | back w => back (Template.fill env w)
  | reload w => reload (Template.fill env w)

end Step

/-- A step at its place in a document, under the name by which its command is known. -/
structure Action where
  kind : String
  step : Step
  /-- The place in the document, counted from one. -/
  index : Nat

end BrowserFlow
