import BrowserFlow.Text.CharClass
import BrowserFlow.Text.Scan

/-!
# Documents in replies

A model surrounds the document that it was asked for with fences and prose. The fences are dropped
wherever they stand. The document begins at the first line that starts with a hyphen, and it ends
before the first line after that which is neither indented, nor blank, nor starts with one.
-/

namespace BrowserFlow.Reply

/-- A fence at the front: three backticks, with the name of the language if that is YAML. -/
def fence? (cs : List Char) : Option (List Char × Nat) := do
  let rest ← Text.dropPrefix? ['\x60', '\x60', '\x60'] cs
  let named := fun (name : String) =>
    let word := rest.take name.length
    word.map Char.toLower == name.toList
  return ([], if named "yaml" then 7 else if named "yml" then 6 else 3)

/-- A reply without fences and without the blanks at its ends. -/
def unfenced (reply : String) : String :=
  Text.trim (Text.replaceAll fence? reply)

/-- Whether a line starts with a hyphen behind blanks. -/
def isItem (line : String) : Bool :=
  Text.beginsWith (Text.trim line) "-"

/-- Whether a line can stand inside a document. -/
def belongs (line : String) : Bool :=
  Text.isBlankText line || Text.beginsWith line " " || Text.beginsWith line "\t" || isItem line

/-- The document in a reply; a reply without one is left as it is. -/
def document (reply : String) : String :=
  let cleaned := unfenced reply
  match (Text.lines cleaned).dropWhile (!isItem ·) with
  | [] => cleaned
  | lines => Text.trim ("\n".intercalate (lines.takeWhile belongs))

end BrowserFlow.Reply
