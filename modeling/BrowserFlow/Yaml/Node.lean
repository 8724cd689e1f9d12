import BrowserFlow.Yaml.Tag
import BrowserFlow.Yaml.Token.Lexer

/-!
# From tokens to nodes

A document is a tree of nodes, each with its tag. Nodes are numbered in the order in which they
begin; an alias stands for the node that was anchored under its name, number included, so that
nodes of one number are one node. Inside the node it stands for, an alias is `within`.
-/

namespace BrowserFlow.Yaml

inductive Node
  | scalar (id : Nat) (tag : Tag) (text : String)
  | sequence (id : Nat) (tag : Tag) (items : List Node)
  | mapping (id : Nat) (tag : Tag) (entries : List (Node × Node))
  | within (id : Nat)
  deriving Inhabited

/-- What is known while a document is read. -/
structure Reading where
  tokens : List Token
  /-- The next free number. -/
  fresh : Nat := 0
  /-- The nodes by anchor, the latest first. -/
  anchors : List (String × Node) := []
  /-- What the tag handles stand for. -/
  handles : List (String × String) := [("!", "!"), ("!!", Tag.core)]

namespace Reading

/-- The next token. -/
def peek (r : Reading) : Option Token :=
  r.tokens.head?

def drop (r : Reading) : Reading :=
  { r with tokens := r.tokens.tail }

/-- Takes the next token if it is the given one. -/
def take? (t : Token) (r : Reading) : Option Reading :=
  if r.peek = some t then some r.drop else none

/-- Whether the next token is one of some. -/
def at? (r : Reading) (ts : List Token) : Bool :=
  match r.peek with
  | some t => ts.contains t
  | none => false

/-- What stands in front of a node. -/
structure Properties where
  anchor : Option String := none
  tag : Option String := none

/-- The full name of a tag. -/
def fullTag (r : Reading) : Option String → String → Except Error String
  | none, suffix => .ok suffix
  | some handle, suffix =>
    match r.handles.find? fun h => h.1 == handle with
    | some (_, start) => .ok (start ++ suffix)
    | none => .error .malformed

/-- Reads the anchor and the tag in front of a node, in either order. -/
def properties (r : Reading) : Except Error (Properties × Reading) := do
  match r.tokens with
  | .anchor a :: .tag h s :: rest =>
    return ({ anchor := some a, tag := some (← r.fullTag h s) }, { r with tokens := rest })
  | .tag h s :: .anchor a :: rest =>
    return ({ anchor := some a, tag := some (← r.fullTag h s) }, { r with tokens := rest })
  | .anchor a :: rest => return ({ anchor := some a }, { r with tokens := rest })
  | .tag h s :: rest => return ({ tag := some (← r.fullTag h s) }, { r with tokens := rest })
  | _ => return ({}, r)

/-- A number for a new node. -/
def number (r : Reading) : Nat × Reading :=
  (r.fresh, { r with fresh := r.fresh + 1 })

/-- Anchors a node. -/
def bind (anchor : Option String) (n : Node) (r : Reading) : Reading :=
  match anchor with
  | some a => { r with anchors := (a, n) :: r.anchors }
  | none => r

/-- The tag of a collection, by default that of its kind. -/
def collectionTag (tag : Option String) (default : Tag) : Tag :=
  match tag with
  | none | some "!" => default
  | some name => Tag.ofName name

/-- The tag of a scalar. Only a plain scalar gets its kind from its form; the tag `!` asks for
that too. -/
def scalarTag (tag : Option String) (plain : Bool) (text : String) : Tag :=
  match tag with
  | none => if plain then Tag.ofForm text else .str
  | some "!" => Tag.ofForm text
  | some name => Tag.ofName name

/-- A scalar. -/
def scalar (p : Properties) (plain : Bool) (text : String) (r : Reading) : Node × Reading :=
  let (id, r) := r.number
  let n := Node.scalar id (scalarTag p.tag plain text) text
  (n, r.bind p.anchor n)

/-- A node that is not written at all. -/
def empty (r : Reading) : Node × Reading :=
  r.scalar {} true ""

/-- An anchor may be used only once. -/
def checkAnchor (p : Properties) (r : Reading) : Except Error Unit :=
  match p.anchor with
  | some a => if r.anchors.any fun e => e.1 == a then .error .malformed else .ok ()
  | none => .ok ()

mutual

/-- A node. `inBlock` tells whether block collections may stand here, and `dashed` whether a
sequence may begin without indentation of its own. -/
def node (inBlock dashed : Bool) : (fuel : Nat) → Reading → Except Error (Node × Reading)
  | 0, _ => .error .malformed
  | fuel + 1, r =>
    match r.peek with
    | some (.alias name) =>
      match r.anchors.find? fun e => e.1 == name with
      | some (_, n) => .ok (n, r.drop)
      | none => .error .malformed
    | _ => do
      let (p, r) ← r.properties
      r.checkAnchor p
      let sequence := fun (r : Reading)
          (read : Reading → Except Error (List Node × Reading)) => do
        let (id, r) := r.number
        let (items, r') ← read (r.bind p.anchor (.within id))
        let n := Node.sequence id (collectionTag p.tag .seq) items
        return (n, r'.bind p.anchor n)
      let mapping := fun (r : Reading)
          (read : Reading → Except Error (List (Node × Node) × Reading)) => do
        let (id, r) := r.number
        let (entries, r') ← read (r.bind p.anchor (.within id))
        let n := Node.mapping id (collectionTag p.tag .map) entries
        return (n, r'.bind p.anchor n)
      -- properties may stand in front of a node that is not written
      let unwritten : Except Error (Node × Reading) :=
        if p.anchor.isSome || p.tag.isSome then .ok (r.scalar p true "") else .error .malformed
      match r.peek with
      | some .blockEntry => if dashed then sequence r (dashes fuel) else unwritten
      | some (.scalar text plain) => return r.drop.scalar p plain text
      | some .flowSequenceStart => sequence r.drop (flowItems fuel true)
      | some .flowMappingStart => mapping r.drop (flowEntries fuel true)
      | some .blockSequenceStart =>
        if inBlock then sequence r.drop (blockItems fuel) else unwritten
      | some .blockMappingStart =>
        if inBlock then mapping r.drop (blockEntries fuel) else unwritten
      | _ => unwritten

/-- A node, or an empty one if one of some tokens comes next. -/
def nodeUnless (ends : List Token) (inBlock dashed : Bool) : (fuel : Nat) → Reading →
    Except Error (Node × Reading)
  | 0, _ => .error .malformed
  | fuel + 1, r => if r.at? ends then .ok r.empty else node inBlock dashed fuel r

/-- The items of an indented sequence, to its end. -/
def blockItems : (fuel : Nat) → Reading → Except Error (List Node × Reading)
  | 0, _ => .error .malformed
  | fuel + 1, r =>
    match r.peek with
    | some .blockEntry => do
      let (n, r) ← nodeUnless [.blockEntry, .blockEnd] true false fuel r.drop
      let (ns, r) ← blockItems fuel r
      return (n :: ns, r)
    | some .blockEnd => .ok ([], r.drop)
    | _ => .error .malformed

/-- The items of a sequence without indentation of its own. -/
def dashes : (fuel : Nat) → Reading → Except Error (List Node × Reading)
  | 0, _ => .error .malformed
  | fuel + 1, r =>
    match r.peek with
    | some .blockEntry => do
      let (n, r) ← nodeUnless [.blockEntry, .key, .value, .blockEnd] true false fuel r.drop
      let (ns, r) ← dashes fuel r
      return (n :: ns, r)
    | _ => .ok ([], r)

/-- The entries of an indented mapping, to its end. -/
def blockEntries : (fuel : Nat) → Reading → Except Error (List (Node × Node) × Reading)
  | 0, _ => .error .malformed
  | fuel + 1, r =>
    match r.peek with
    | some .key => do
      let (k, r) ← nodeUnless [.key, .value, .blockEnd] true true fuel r.drop
      let (v, r) ← blockValue fuel r
      let (es, r) ← blockEntries fuel r
      return ((k, v) :: es, r)
    | some .value => .error .malformed
    | some .blockEnd => .ok ([], r.drop)
    | _ => .error .malformed

/-- The value of an entry of an indented mapping. -/
def blockValue : (fuel : Nat) → Reading → Except Error (Node × Reading)
  | 0, _ => .error .malformed
  | fuel + 1, r =>
    match r.take? .value with
    | some r => nodeUnless [.key, .value, .blockEnd] true true fuel r
    | none => .ok r.empty

/-- The items of a sequence in brackets. -/
def flowItems : (fuel : Nat) → (first : Bool) → Reading → Except Error (List Node × Reading)
  | 0, _, _ => .error .malformed
  | fuel + 1, first, r =>
    match r.take? .flowSequenceEnd with
    | some r => .ok ([], r)
    | none => do
      let r ← if first then pure r else
        match r.take? .flowEntry with
        | some r => pure r
        | none => throw .malformed
      match r.peek with
      | some .flowSequenceEnd => return ([], r.drop)
      | some .key =>
        -- a single entry without braces is a mapping of its own
        let (id, r) := r.number
        let (k, r) ← nodeUnless [.value, .flowEntry, .flowSequenceEnd] false false fuel r.drop
        let (v, r) ← match r.take? .value with
          | some r => nodeUnless [.flowEntry, .flowSequenceEnd] false false fuel r
          | none => pure r.empty
        let (ns, r) ← flowItems fuel false r
        return (.mapping id .map [(k, v)] :: ns, r)
      | _ =>
        let (n, r) ← node false false fuel r
        let (ns, r) ← flowItems fuel false r
        return (n :: ns, r)

/-- The entries of a mapping in braces. -/
def flowEntries : (fuel : Nat) → (first : Bool) → Reading →
    Except Error (List (Node × Node) × Reading)
  | 0, _, _ => .error .malformed
  | fuel + 1, first, r =>
    match r.take? .flowMappingEnd with
    | some r => .ok ([], r)
    | none => do
      let r ← if first then pure r else
        match r.take? .flowEntry with
        | some r => pure r
        | none => throw .malformed
      match r.peek with
      | some .flowMappingEnd => return ([], r.drop)
      | some .key =>
        let (k, r) ← nodeUnless [.value, .flowEntry, .flowMappingEnd] false false fuel r.drop
        let (v, r) ← match r.take? .value with
          | some r => nodeUnless [.flowEntry, .flowMappingEnd] false false fuel r
          | none => pure r.empty
        let (es, r) ← flowEntries fuel false r
        return ((k, v) :: es, r)
      | _ =>
        let (k, r) ← node false false fuel r
        let (v, r) := r.empty
        let (es, r) ← flowEntries fuel false r
        return ((k, v) :: es, r)

end

/-- Reads the directives before a document. -/
def directives : (fuel : Nat) → (versionSeen : Bool) → List (String × String) → Reading →
    Except Error (List (String × String) × Reading)
  | 0, _, _, _ => .error .malformed
  | fuel + 1, versionSeen, handles, r =>
    match r.peek with
    | some (.directive (.version major)) =>
      if versionSeen || major != 1 then .error .malformed
      else directives fuel true handles r.drop
    | some (.directive (.tag handle start)) =>
      if handles.any fun h => h.1 == handle then .error .malformed
      else directives fuel versionSeen ((handle, start) :: handles) r.drop
    | some (.directive .other) => directives fuel versionSeen handles r.drop
    | _ => .ok (handles, r)

/-- Past marks for the end of a document. -/
def skipEnds (r : Reading) : Reading :=
  { r with tokens := r.tokens.dropWhile (· == .documentEnd) }

/-- The content of a document that began with a mark. -/
def content (r : Reading) : Except Error (Node × Reading) :=
  match r.peek with
  | none | some .documentStart | some .documentEnd | some (.directive _) => .ok r.empty
  | _ => node true false (8 * r.tokens.length + 8) r

/-- The document at the front; nothing if there is none. -/
def document (r : Reading) : Except Error (Option Node × Reading) := do
  match r.peek with
  | none => return (none, r)
  | some (.directive _) | some .documentStart =>
    let (handles, r) ← directives (r.tokens.length + 1) false [] r
    let r := { r with handles := handles ++ r.handles }
    match r.take? .documentStart with
    | none => throw .malformed
    | some r =>
      let (n, r) ← r.content
      return (some n, r)
  | _ =>
    let (n, r) ← node true false (8 * r.tokens.length + 8) r
    return (some n, r)

end Reading

/-- The only document of a text; nothing if the text holds none. -/
def Node.ofText (text : String) : Except Error (Option Node) := do
  let r : Reading := { tokens := ← tokens text }
  let (n, r) ← r.document
  match n with
  | none => return none
  | some n =>
    -- marks for the end may follow, but no second document
    let r := match r.take? .documentEnd with
      | some r => r.skipEnds
      | none => r
    if r.tokens.isEmpty then return some n else throw .malformed

end BrowserFlow.Yaml
