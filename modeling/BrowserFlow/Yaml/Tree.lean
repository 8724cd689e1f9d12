import BrowserFlow.Yaml.Node
import BrowserFlow.Yaml.Scalar.Meaning

/-!
# From nodes to values

The value of a document keeps the numbers of its nodes as long as it may be written again, because
a collection that occurs in several places is written once and referred to afterwards. `Tree` is a
value with those numbers, and `Tree.value` forgets them.

Where several nodes have no value, the cause is that of the outermost, and of those the first.
-/

namespace BrowserFlow.Yaml

inductive Tree
  | leaf (id : Nat) (v : Value)
  | list (id : Nat) (items : List Tree)
  /-- An item of a list of pairs. -/
  | pair (first second : Tree)
  | map (id : Nat) (entries : List (Tree × Tree))
  | set (id : Nat) (items : List Tree)
  /-- A place where a collection holds itself. -/
  | within (id : Nat)
  deriving Inhabited

namespace Tree

mutual

/-- The value of a tree. A place where a collection holds itself has no value; it reads as null. -/
def value : Tree → Value
  | leaf _ v => v
  | list _ items => .list (values items)
  | pair a b => .pair (value a) (value b)
  | map _ entries => .map (entryValues entries)
  | set _ items => .set (values items)
  | within _ => .null
termination_by structural t => t

def values : List Tree → List Value
  | [] => []
  | t :: ts => value t :: values ts
termination_by structural ts => ts

def entryValues : List (Tree × Tree) → List (Value × Value)
  | [] => []
  | (k, v) :: es => (value k, value v) :: entryValues es
termination_by structural es => es

end

/-- Whether a tree may be a key. -/
def isKey : Tree → Bool
  | leaf _ v => v.isKey
  | _ => false

/-- Sets a key in its place, or adds it at the end. The key that came first stays. -/
def putEntry : List (Tree × Tree) → Tree → Tree → List (Tree × Tree)
  | [], key, v => [(key, v)]
  | (k, old) :: rest, key, v =>
    if k.value.same key.value then (k, v) :: rest else (k, old) :: putEntry rest key v

/-- Entries of which the last for each key counts, in the place of the first. -/
def distinct (entries : List (Tree × Tree)) : List (Tree × Tree) :=
  entries.foldl (fun acc e => putEntry acc e.1 e.2) []

end Tree

/-- A value, or the depth at which there is none and why. -/
abbrev Build (α : Type) := Except (Nat × Error) α

namespace Build

/-- Two values. Of two causes the less deep counts, and of equally deep ones the first. -/
def both {α β : Type} (a : Build α) (b : Build β) : Build (α × β) :=
  match a, b with
  | .ok x, .ok y => .ok (x, y)
  | .error e, .ok _ => .error e
  | .ok _, .error e => .error e
  | .error e, .error f => .error (if f.1 < e.1 then f else e)

/-- Adds a value in front of others. -/
def cons {α : Type} (a : Build α) (as : Build (List α)) : Build (List α) :=
  (both a as).map fun p => p.1 :: p.2

def fail {α : Type} (depth : Nat) : Build α :=
  .error (depth, .malformed)

end Build

open Build

namespace Node

/-- The text of a scalar, or of the entry with the key `=` of a mapping that stands for one. -/
def scalarText? : Node → Option String
  | .scalar _ _ text => some text
  | .mapping _ _ entries => entryText? entries
  | _ => none
where
  entryText? : List (Node × Node) → Option String
    | [] => none
    | (.scalar _ .value _, v) :: _ => scalarText? v
    | _ :: rest => entryText? rest

def isMergeKey : Node → Bool
  | .scalar _ .merge _ => true
  | _ => false

/-- Checks that a key may be one. -/
def checkedKey (depth : Nat) (key : Build Tree) : Build Tree :=
  match key with
  | .ok t => if t.isKey then .ok t else fail depth
  | .error e => if depth < e.1 then fail depth else .error e

/-- A scalar with a tag. -/
def buildScalar (depth id : Nat) (tag : Tag) (text : String) : Build Tree :=
  ((Scalar.value tag text).map (Tree.leaf id)).mapError fun e => (depth, e)

mutual

/-- The tree of a node at a depth; what it holds is one deeper. -/
def build (depth : Nat) : Node → Build Tree
  | .within id => .ok (.within id)
  | .scalar id tag text =>
    match tag with
    | .seq | .map | .set | .omap | .pairs => fail (depth + 1)
    | _ => buildScalar depth id tag text
  | .sequence id tag items =>
    match tag with
    | .seq => (buildItems (depth + 1) items).map (.list id)
    | .omap | .pairs => (buildPairs (depth + 1) items).map (.list id)
    | .map | .set => fail (depth + 1)
    | _ => fail depth
  | .mapping id tag entries =>
    match tag with
    | .map => (buildEntries (depth + 1) entries).map fun p =>
        .map id (Tree.distinct (p.1 ++ p.2))
    | .set => (buildEntries (depth + 1) entries).map fun p =>
        .set id ((Tree.distinct (p.1 ++ p.2)).map (·.1))
    | .seq | .omap | .pairs => fail (depth + 1)
    | _ =>
      match scalarText? (.mapping id tag entries) with
      | some text => buildScalar depth id tag text
      | none => fail depth
termination_by structural n => n

def buildItems (depth : Nat) : List Node → Build (List Tree)
  | [] => .ok []
  | n :: ns => cons (build depth n) (buildItems depth ns)
termination_by structural ns => ns

/-- The items of a list of pairs: mappings with one entry each. -/
def buildPairs (depth : Nat) : List Node → Build (List Tree)
  | [] => .ok []
  | n :: ns => cons (buildPair depth n) (buildPairs depth ns)
termination_by structural ns => ns

/-- The entry of a mapping that has one. -/
def buildPair (depth : Nat) : Node → Build Tree
  | .mapping _ _ [(k, v)] => (both (build depth k) (build depth v)).map fun p => .pair p.1 p.2
  | _ => fail depth
termination_by structural n => n

/-- The entries of a mapping: those merged into it and its own. -/
def buildEntries (depth : Nat) : List (Node × Node) →
    Build (List (Tree × Tree) × List (Tree × Tree))
  | [] => .ok ([], [])
  | (k, v) :: es =>
    if isMergeKey k then
      (both (merged depth v) (buildEntries depth es)).map fun (m, merged, own) =>
        (m ++ merged, own)
    else
      let entry := match k with
        | .scalar id .value text => both (buildScalar depth id .str text) (build depth v)
        | k => both (checkedKey depth (build depth k)) (build depth v)
      (both entry (buildEntries depth es)).map fun (e, merged, own) => (merged, e :: own)
termination_by structural es => es

/-- The entries that a merge brings in: those of a mapping, or of the mappings of a sequence, the
last of them first. -/
def merged (depth : Nat) : Node → Build (List (Tree × Tree))
  | .mapping _ _ entries => (buildEntries depth entries).map fun p => p.1 ++ p.2
  | .sequence _ _ items => mergedItems depth items
  | .within _ => .ok []
  | .scalar .. => fail depth
termination_by structural n => n

def mergedItems (depth : Nat) : List Node → Build (List (Tree × Tree))
  | [] => .ok []
  | n :: ns => (both (mergedItem depth n) (mergedItems depth ns)).map fun p => p.2 ++ p.1
termination_by structural ns => ns

/-- The entries of a mapping among several that are merged. -/
def mergedItem (depth : Nat) : Node → Build (List (Tree × Tree))
  | .mapping _ _ entries => (buildEntries depth entries).map fun p => p.1 ++ p.2
  | .within _ => .ok []
  | _ => fail depth
termination_by structural n => n

end

end Node

/-- The tree of a text; a text without a document has none. -/
def loadTree (text : String) : Except Error (Option Tree) := do
  match ← Node.ofText text with
  | none => return none
  | some n => ((n.build 0).map some).mapError (·.2)

/-- The value of a text; a text without a document is null. -/
def load (text : String) : Except Error Value :=
  (loadTree text).map fun t => (t.map Tree.value).getD .null

end BrowserFlow.Yaml
