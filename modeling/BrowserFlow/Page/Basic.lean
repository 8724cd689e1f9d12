import BrowserFlow.Failure
import BrowserFlow.Page.Call

/-!
# Pages

What is known of a page: its address and title, the elements that each selector matches, and the
results of scripts in the order in which they are taken. A page may take its time over calls of a
name, and it may fail at calls with a key or of a name. What it does at a single call can also be
laid down for that call alone, so that nothing it might do is left out.
-/

namespace BrowserFlow

structure Element where
  text : String := ""
  /-- The value of an input field. -/
  value : Option Value := none
  visible : Bool := true
  attributes : Table Value := []
  properties : Table Value := []
  /-- The text cannot be read. -/
  silent : Bool := false
  /-- The address to which a click on the element leads. -/
  leadsTo : Option Value := none
  deriving Inhabited

/-- How a page fails at a call. -/
inductive Trouble
  | error (message : String)
  | unmet (message : String)
  | timeout (message : String)
  /-- The page never answers. -/
  | hang

/-- The result of a script. -/
inductive ScriptResult
  | value (v : Value)
  | error (message : String)

/-- What a page does at one call. -/
structure Turn where
  /-- The milliseconds that the call takes. -/
  ms : Nat := 0
  /-- The answer, or how the page fails. -/
  answer : Except Trouble Value
  /-- The address after the call, if it is another. -/
  url : Option String := none
  /-- The title after the call, if it is another. -/
  title : Option String := none

structure Page where
  url : String := "about:blank"
  title : String := ""
  elements : Table (List Element) := []
  troubles : Table Trouble := []
  /-- The milliseconds that calls of a name take. -/
  delays : Table Nat := []
  /-- The results of the scripts to come. -/
  results : List ScriptResult := []
  /-- What a sample of the page holds. -/
  digest : Value := .map []
  /-- What the page does at the calls to come, where it does not go by its elements. -/
  turns : List (Option Turn) := []
  /-- The calls so far. -/
  calls : List PageCall := []
  deriving Inhabited

namespace Page

/-- What a table holds for a key. A key that is no text has nothing, and one that cannot be a key
cannot be looked up. -/
def lookup {α : Type} (t : Table α) (key : Value) : Except Fault (Option α) :=
  match key with
  | .text s => .ok (t.get? s)
  | v => if v.isKey then .ok none else .error (.kind s!"unhashable type: '{v.kindName}'")

/-- How the page fails at a call, if it does: a call with its key comes before its name. -/
def trouble? (p : Page) (c : PageCall) : Except Fault (Option Trouble) := do
  let own ← match c.key? with
    | some key => lookup p.troubles key
    | none => pure none
  return own <|> p.troubles.get? c.name

/-- The time that a call takes. -/
def delay (p : Page) (c : PageCall) : Nat :=
  (p.delays.get? c.name).getD 0

/-- The elements that a selector matches. -/
def matching (p : Page) (selector : Value) : Except Fault (List Element) :=
  (lookup p.elements selector).map (·.getD [])

/-- The first element that a selector matches, with the others. -/
def needed (p : Page) (selector : Value) : Except Fault (Element × List Element) := do
  match ← p.matching selector with
  | e :: rest => return (e, rest)
  | [] => throw (.page ("No element matches selector: " ++ selector.plainText))

/-- The page with another value in the first element that a selector matches. -/
def withValue (p : Page) (selector : Value) (text : String) : Except Fault Page := do
  let (e, rest) ← p.needed selector
  return { p with
    elements := p.elements.put selector.plainText ({ e with value := some (.text text) } :: rest) }

/-- What is laid down for the next call. -/
def nextTurn (p : Page) : Option Turn × Page :=
  match p.turns with
  | [] => (none, p)
  | turn :: rest => (turn, { p with turns := rest })

/-- The page after a call for which its doing was laid down. -/
def after (p : Page) (turn : Turn) : Page :=
  { p with url := turn.url.getD p.url, title := turn.title.getD p.title }

/-- The next result of a script. -/
def nextResult (p : Page) : Except Fault Value × Page :=
  match p.results with
  | [] => (.ok .null, p)
  | .value v :: rest => (.ok v, { p with results := rest })
  | .error m :: rest => (.error (.page m), { p with results := rest })

/-- What a sample of the page holds: its address and title, with the digest over them. -/
def sampled (p : Page) : Value :=
  match p.digest with
  | .map entries => .map (entries.foldl (fun acc e => Value.putEntry acc e.1 e.2)
      [(.text "url", .text p.url), (.text "title", .text p.title)])
  | v => v

/-- The answer that changes nothing, given that a selector matches an element. -/
def reading (p : Page) (selector : Value) (f : Element → Except Fault Value) :
    Except Fault Value × Page :=
  ((p.needed selector).bind fun e => f e.1, p)

/-- The answer null with a changed page. -/
def changing (p : Page) : Except Fault Page → Except Fault Value × Page
  | .ok changed => (.ok .null, changed)
  | .error f => (.error f, p)

/-- The text of an element that can be read. -/
def textOf (e : Element) : Except Fault Value :=
  if e.silent then .error (.page "text not available") else .ok (.text e.text)

/-- A property of an element. -/
def propertyOf (e : Element) (name : Value) : Except Fault Value :=
  match name with
  | .text "textContent" => .ok (.text e.text)
  | name => (lookup e.properties name).map (·.getD .null)

/-- The address after a click on an element. -/
def followed (p : Page) (e : Element) : Page :=
  match e.leadsTo with
  | some v => if v.truthy then { p with url := v.plainText } else p
  | none => p

/-- What a page answers to a call at which it does not fail, and the page after it. -/
def respond (p : Page) (c : PageCall) : Except Fault Value × Page :=
  let untouched := fun s => p.reading s fun _ => .ok .null
  match c with
  | .goto url _ => (.ok .null, { p with url })
  | .click s .. => p.changing ((p.needed s).map fun e => p.followed e.1)
  | .type s text .. | .fill s text _ => p.changing (p.withValue s text)
  | .press s .. | .hover s .. | .selectOption s .. | .waitForSelector s .. | .scrollIntoView s =>
    untouched s
  | .keyboard _ | .waitForUrl .. | .waitForTime _ | .screenshot .. | .goBack _ | .reload _ =>
    (.ok .null, p)
  | .evaluate .. => p.nextResult
  | .sample _ => (.ok p.sampled, p)
  | .count s => ((p.matching s).map fun es => .int es.length, p)
  | .innerText s index =>
    ((do
      let (e, rest) ← p.needed s
      textOf (((e :: rest)[index]?).getD e)), p)
  | .inputValue s => p.reading s fun e =>
    match e.value with
    | some v => .ok v
    | none => .error (.page "Error: Node is not an <input>")
  | .readAttribute s name => p.reading s fun e => (lookup e.attributes name).map (·.getD .null)
  | .readProperty s name => p.reading s fun e => propertyOf e name
  | .waitForElement s visible timeout =>
    ((do
      let shown := ((← p.matching s).head?.map (·.visible)).getD false
      if shown == visible then return .null
      else throw (.late s!"Timeout {timeout}ms exceeded.")), p)

end Page

end BrowserFlow
