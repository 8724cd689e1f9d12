import BrowserFlow.Decimal.Shortest
import BrowserFlow.Yaml.Tree
import BrowserFlow.Yaml.Writer.Scalar

/-!
# Writing YAML

Every collection is written as a block, two columns deeper than what holds it, except that a list
in a mapping stays in its column. Empty collections are written in brackets. A collection that
occurs several times gets a name at its first place and is referred to by it at the others.
-/

namespace BrowserFlow.Yaml

/-! ## Scalars and their texts -/

/-- The alphabet of base 64. -/
def base64Char (n : Nat) : Char :=
  if n < 26 then Char.ofNat (65 + n)
  else if n < 52 then Char.ofNat (71 + n)
  else if n < 62 then Char.ofNat (n - 4)
  else if n == 62 then '+' else '/'

/-- Three bytes as four characters; a group that lacks bytes is padded. -/
def base64Chars : List UInt8 → List Char
  | a :: b :: c :: rest =>
    let n := (a.toNat * 256 + b.toNat) * 256 + c.toNat
    base64Char (n / 262144) :: base64Char (n / 4096 % 64) :: base64Char (n / 64 % 64) ::
      base64Char (n % 64) :: base64Chars rest
  | [a, b] =>
    let n := (a.toNat * 256 + b.toNat) * 4
    [base64Char (n / 4096), base64Char (n / 64 % 64), base64Char (n % 64), '=']
  | [a] => [base64Char (a.toNat / 4), base64Char (a.toNat % 4 * 16), '=', '=']
  | [] => []

/-- Base 64 in lines of 76 characters; `left` more fit in the line. -/
def base64Lines (left : Nat) : List Char → List Char
  | [] => ['\n']
  | c :: cs =>
    match left with
    | 0 => '\n' :: c :: base64Lines 75 cs
    | left + 1 => c :: base64Lines left cs

/-- The text of a double: always with a point, so that it is read back as one. -/
def doubleText (x : Float) : String :=
  if x.isNaN then ".nan"
  else if x.isInf then if x < 0 then "-.inf" else ".inf"
  else
    let s := Decimal.floatText x
    let (mantissa, exponent) := Text.cutAt 'e' s
    match exponent with
    | some e => if s.contains '.' then s else mantissa ++ ".0e" ++ e
    | none => s

/-- The tag and the text of a value that is written as a scalar. -/
def scalarForm : Value → Tag × String
  | .null => (.null, "null")
  | .bool b => (.bool, if b then "true" else "false")
  | .int n => (.int, toString n)
  | .float x => (.float, doubleText x)
  | .text s => (.str, s)
  | .bytes data =>
    (.binary, if data.isEmpty then "" else String.ofList (base64Lines 76 (base64Chars data)))
  | .date d => (.timestamp, d.iso)
  | .moment m => (.timestamp, m.iso " ")
  | _ => (.null, "null")

/-! ## Collections that occur several times -/

/-- Whether a scalar counts as a thing of its own, which is named when it occurs again. -/
def isNameable : Value → Bool
  | .date _ | .moment _ => true
  | _ => false

/-- What has been seen of a tree: the numbers met, and those met again, the last ones first. -/
structure Sightings where
  seen : List Nat := []
  shared : List Nat := []

namespace Sightings

/-- Meets a number again. -/
def again (s : Sightings) (id : Nat) : Sightings :=
  if s.shared.contains id then s else { s with shared := id :: s.shared }

mutual

/-- Goes over a tree; what was met before is not entered again. -/
def visit (s : Sightings) : Tree → Sightings
  | .leaf id v =>
    if !isNameable v then s
    else if s.seen.contains id then s.again id
    else { s with seen := id :: s.seen }
  | .list id items =>
    if s.seen.contains id then s.again id
    else visitAll { s with seen := id :: s.seen } items
  | .pair a b => visit (visit s a) b
  | .map id entries =>
    if s.seen.contains id then s.again id
    else visitEntries { s with seen := id :: s.seen } entries
  | .set id items =>
    if s.seen.contains id then s.again id
    else visitAll { s with seen := id :: s.seen } items
  | .within id => s.again id
termination_by structural t => t

def visitAll (s : Sightings) : List Tree → Sightings
  | [] => s
  | t :: ts => visitAll (visit s t) ts
termination_by structural ts => ts

def visitEntries (s : Sightings) : List (Tree × Tree) → Sightings
  | [] => s
  | (k, v) :: es => visitEntries (visit (visit s k) v) es
termination_by structural es => es

end

end Sightings

/-- Names by number, in the order in which things were met again. -/
def anchors (shared : List Nat) : List (Nat × String) :=
  shared.reverse.zipIdx.map fun (id, n) => (id, "id" ++ Calendar.padded 3 (n + 1))

/-! ## Writing -/

/-- Where a node stands. -/
inductive Place
  | root
  | item
  | entry
  /-- A key in the same line as its value. -/
  | key
  deriving DecidableEq

/-- The pen and what it has written already of the things that have names. -/
structure Sheet where
  pen : Pen := {}
  names : List (Nat × String) := []
  named : List Nat := []

namespace Sheet

/-- Changes the pen. -/
def write (s : Sheet) (f : Pen → Pen) : Sheet :=
  { s with pen := f s.pen }

/-- Writes a reference to something that is there already, or else the name that it gets; tells
whether it was there. -/
def refer (s : Sheet) (id : Nat) : Bool × Sheet :=
  match s.names.lookup id with
  | none => (false, s)
  | some name =>
    if s.named.contains id then (true, s.write fun p => p.mark ("*" ++ name) true false)
    else (false, { s with
      pen := s.pen.mark ("&" ++ name) true false
      named := id :: s.named })

/-- Writes a value as a scalar. -/
def scalar (s : Sheet) (indent : Nat) (place : Place) (v : Value) : Sheet :=
  let (tag, text) := scalarForm v
  let cs := text.toList
  let asKey := place == .key
  let style := Style.choose (Style.Traits.of cs) (Tag.ofForm text == tag) asKey (tag == .binary)
  let s := if tag == .binary then s.write fun p => p.mark "!!binary" true false else s
  s.write fun p =>
    match style with
    | .plain => p.plain indent (!asKey) cs
    | .single => p.single indent (!asKey) cs
    | .double => p.double indent (!asKey) cs
    | .literal => p.literal indent cs

/-- The length of the name of a scalar that has one. -/
def nameLength (s : Sheet) (id : Nat) (v : Value) : Nat :=
  if isNameable v then ((s.names.lookup id).map String.length).getD 0 else 0

/-- Whether a key fits in one line with its value: it has less than 128 characters together with
its name and its tag. -/
def isSimpleKey (s : Sheet) : Tree → Bool
  | .leaf id v =>
    let (tag, text) := scalarForm v
    let traits := Style.Traits.of text.toList
    (isNameable v && s.named.contains id) ||
      (s.nameLength id v + (tag.shortName.length + 2) + text.length < 128 &&
        !traits.empty && !traits.multiline)
  | _ => false

/-- The column of a collection; a list in a mapping stays in the column of the mapping. -/
def deeper (indent : Option Nat) (stay : Bool) : Nat :=
  match indent with
  | none => 0
  | some n => if stay then n else n + 2

/-- Begins an item of a list. -/
def dash (s : Sheet) (indent : Nat) : Sheet :=
  s.write fun p => (p.indent indent).mark "-" true true

/-- Begins an entry of a mapping; a key that does not fit in the line is marked. -/
def beginEntry (s : Sheet) (indent : Nat) (simple : Bool) : Sheet :=
  s.write fun p => if simple then p.indent indent else (p.indent indent).mark "?" true true

/-- Goes from the key of an entry to its value. -/
def colon (s : Sheet) (indent : Nat) (simple : Bool) : Sheet :=
  s.write fun p =>
    if simple then p.mark ":" false false else (p.indent indent).mark ":" true true

mutual

/-- Writes a tree. `indent` is the column of the collection that holds it, if one does. -/
def tree (indent : Option Nat) (place : Place) (s : Sheet) : Tree → Sheet
  | .leaf id v =>
    let (there, s) := if isNameable v then s.refer id else (false, s)
    if there then s else s.scalar ((indent.map (· + 2)).getD 2) place v
  | .within id => (s.refer id).2
  | .list id items =>
    let (there, s) := s.refer id
    if there then s
    else if items.isEmpty then s.write fun p => p.mark "[]" true false
    else sequence (deeper indent (place == .entry && !s.pen.fresh)) s items
  | .pair a b =>
    let column := deeper indent (place == .entry && !s.pen.fresh)
    let s := tree (some column) .item (s.dash column) a
    tree (some column) .item (s.dash column) b
  | .map id entries =>
    let (there, s) := s.refer id
    if there then s
    else if entries.isEmpty then s.write fun p => p.mark "\x7b\x7d" true false
    else mapping (deeper indent false) s entries
  | .set id items =>
    let (there, s) := s.refer id
    if there then s
    else
      let s := s.write fun p => p.mark "!!set" true false
      if items.isEmpty then s.write fun p => p.mark "\x7b\x7d" true false
      else members (deeper indent false) s items
termination_by structural t => t

/-- Writes the items of a list. -/
def sequence (indent : Nat) (s : Sheet) : List Tree → Sheet
  | [] => s
  | t :: ts => sequence indent (tree (some indent) .item (s.dash indent) t) ts
termination_by structural ts => ts

/-- Writes the entries of a mapping. -/
def mapping (indent : Nat) (s : Sheet) : List (Tree × Tree) → Sheet
  | [] => s
  | (k, v) :: es =>
    let simple := s.isSimpleKey k
    let s := tree (some indent) (if simple then .key else .entry) (s.beginEntry indent simple) k
    mapping indent (tree (some indent) .entry (s.colon indent simple) v) es
termination_by structural es => es

/-- Writes the members of a set as keys without values. -/
def members (indent : Nat) (s : Sheet) : List Tree → Sheet
  | [] => s
  | k :: ks =>
    let simple := s.isSimpleKey k
    let s := tree (some indent) (if simple then .key else .entry) (s.beginEntry indent simple) k
    members indent ((s.colon indent simple).scalar (indent + 2) .entry .null) ks
termination_by structural ks => ks

end
end Sheet

/-- Whether a tree is written as a plain scalar. -/
def Tree.isPlain : Tree → Bool
  | .leaf _ v =>
    let (tag, text) := scalarForm v
    Style.choose (Style.Traits.of text.toList) (Tag.ofForm text == tag) false (tag == .binary)
      == .plain
  | _ => false

/-- The document of a tree. A plain scalar alone is followed by the mark of the end. -/
def writeTree (shared : List Nat) (t : Tree) : String :=
  let s := Sheet.tree none .root { names := anchors shared } t
  let p := s.pen.indent 0
  let p := if t.isPlain then (p.mark "..." true false).indent 0 else p
  p.text

namespace Tree

mutual

/-- A value as a tree in which nothing is shared. -/
def ofValue : Value → Tree
  | .list items => .list 0 (ofValues items)
  | .map entries => .map 0 (ofEntries entries)
  | .set items => .set 0 (ofValues items)
  | .pair a b => .pair (ofValue a) (ofValue b)
  | v => .leaf 0 v
termination_by structural v => v

def ofValues : List Value → List Tree
  | [] => []
  | v :: vs => ofValue v :: ofValues vs
termination_by structural vs => vs

def ofEntries : List (Value × Value) → List (Tree × Tree)
  | [] => []
  | (k, v) :: es => (ofValue k, ofValue v) :: ofEntries es
termination_by structural es => es

end

mutual

/-- Changes the numbers of a tree. -/
def renumber (f : Nat → Nat) : Tree → Tree
  | .leaf id v => .leaf (f id) v
  | .list id items => .list (f id) (renumberAll f items)
  | .pair a b => .pair (renumber f a) (renumber f b)
  | .map id entries => .map (f id) (renumberEntries f entries)
  | .set id items => .set (f id) (renumberAll f items)
  | .within id => .within (f id)
termination_by structural t => t

def renumberAll (f : Nat → Nat) : List Tree → List Tree
  | [] => []
  | t :: ts => renumber f t :: renumberAll f ts
termination_by structural ts => ts

def renumberEntries (f : Nat → Nat) : List (Tree × Tree) → List (Tree × Tree)
  | [] => []
  | (k, v) :: es => (renumber f k, renumber f v) :: renumberEntries f es
termination_by structural es => es

end

end Tree

/-- The document of a value. -/
def dump (v : Value) : String :=
  writeTree [] (Tree.ofValue v)

/-- The document of a tree, with names for what occurs several times. -/
def dumpTree (t : Tree) : String :=
  writeTree (Sightings.visit {} t).shared t

end BrowserFlow.Yaml
