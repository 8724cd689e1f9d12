import BrowserFlow.Digest.Signature
import BrowserFlow.Text.CharClass

/-!
# From a sample of a page to its digest

A sample holds records of elements, texts, and names of attributes as the page reports them. It is
counted, cleaned and cut to a size, and has to have the form that it should have.
-/

namespace BrowserFlow

/-- The limits of a digest. -/
structure Digest.Limits where
  patterns : Int := 30
  texts : Int := 30
  /-- The elements that are looked at. -/
  sample : Int := 2000
  /-- The least count of a pattern that is kept. -/
  least : Int := 2
  textLength : Int := 100
  attributes : Int := 30
  bytes : Int := 4000

namespace Sample

/-- The classes of a record that count. A token that is no text has no length or is no name. -/
def stableClasses : List Value → Except Fault (List String)
  | [] => .ok []
  | token :: rest =>
    let here : Except Fault (List String) :=
      match token with
      | .text s => .ok (if Signature.isStable s then [s] else [])
      | .list items =>
        if items.isEmpty || Signature.maxLength < items.length then .ok []
        else .error (.kind "expected string or bytes-like object, got 'list'")
      | .map entries =>
        if entries.isEmpty || Signature.maxLength < entries.length then .ok []
        else .error (.kind "expected string or bytes-like object, got 'dict'")
      | v =>
        if v.truthy then .error (.kind s!"object of type '{v.kindName}' has no len()") else .ok []
    match here with
    | .error f => .error f
    | .ok names => (stableClasses rest).map (names ++ ·)

/-- The signature of a tag with some classes. -/
def signatureOf (tag classes : Value) : Except Fault String := do
  let name ← match tag with
    | .text s => pure s
    | v => throw (.part v.kindName "lower")
  if (Text.trim (Text.lower name)).isEmpty then return ""
  return Signature.of name (← stableClasses (← classes.members))

/-- The signature of the element of a record. -/
def signature (record : Value) : Except Fault String :=
  let given := fun (v default : Value) => if v.truthy then v else default
  signatureOf (given (record.field "tag") (.text "")) (given (record.field "classes") (.list []))

/-- The patterns that the element of a record fits: its signature and its role. -/
def patternsOf (record : Value) : Except Fault (List String) := do
  let _ ← match record with
    | .map _ => pure ()
    | v => throw (.part v.kindName "get")
  let signature ← signature record
  let role := record.field "role"
  return (if signature.isEmpty then [] else [signature]) ++
    if role.truthy then ["[role=\"" ++ role.plainText ++ "\"]"] else []

/-- Each of some names with the number of times that it occurs. -/
def tally (names : List String) : List Pattern :=
  (Signature.sorted names).map fun s => ⟨s, names.count s⟩

/-- More frequent patterns come first, and equally frequent ones in alphabetical order. -/
def before (p q : Pattern) : Bool :=
  q.count < p.count || (p.count == q.count && decide (p.selector ≤ q.selector))

/-- The most frequent patterns of some records. -/
def patterns (limits : Digest.Limits) (records : List Value) : Except Fault (List Pattern) := do
  let names := (← (upTo limits.sample records).mapM patternsOf).flatten
  let frequent := (tally names).filter fun p => limits.least ≤ p.count
  return upTo limits.patterns (frequent.mergeSort before)

/-- Adds texts to those picked already until there are enough. -/
def pickFrom (limits : Digest.Limits) (picked : List String) : List Value → List String
  | [] => picked
  | .text s :: rest =>
    let clean := Text.collapse s
    let cut := String.ofList (upTo limits.textLength clean.toList)
    if clean.isEmpty || picked.contains cut then pickFrom limits picked rest
    else if limits.texts ≤ picked.length + 1 then picked ++ [cut]
    else pickFrom limits (picked ++ [cut]) rest
  | _ :: rest => pickFrom limits picked rest

/-- The first of some texts, cleaned and cut, without repetitions. -/
def texts (limits : Digest.Limits) (items : List Value) : List String :=
  pickFrom limits [] items

/-- Names in alphabetical order without repetitions. -/
def names (items : List Value) : Except Fault (List String) :=
  match items.find? fun v => !v.isKey with
  | some v => .error (.kind s!"unhashable type: '{v.kindName}'")
  | none =>
    match items.find? fun v => !v.isText with
    | some v =>
      if items.all fun w => v.same w then .ok [v.plainText]
      else .error (.kind s!"'<' not supported between instances of '{v.kindName}' and 'str'")
    | none => .ok (Signature.sorted (items.map Value.plainText))

/-- The items of a field of a sample that may be missing. -/
def itemsOf (raw : Value) (key : String) : Except Fault (List Value) :=
  if (raw.field key).truthy then (raw.field key).members else .ok []

/-- The records of a sample. -/
def recordsOf (raw : Value) : Except Fault (List Value) :=
  match raw.field "records" with
  | .map (_ :: _) => .error (.kind "unhashable type: 'slice'")
  | v =>
    if !v.truthy then .ok []
    else match v.members with
      | .ok items => .ok items
      | .error _ => .error (.kind s!"'{v.kindName}' object is not subscriptable")

/-- The digest of a sample of the page at an address. A sample that is no record is empty. -/
def digest (limits : Digest.Limits) (url : String) (timestamp : Value) (raw : Value) :
    Except Fault Digest := do
  let given := fun key default =>
    if (raw.field key).truthy then (raw.field key).plainText else default
  let patterns ← patterns limits (← recordsOf raw)
  let texts := texts limits (← itemsOf raw "texts")
  let attributes ← names (← itemsOf raw "attrs")
  return Digest.fit limits.bytes
    { url := given "url" url
      title := given "title" ""
      patterns
      texts
      attributes := upTo limits.attributes attributes
      timestamp }

end Sample

end BrowserFlow
