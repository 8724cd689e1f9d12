import BrowserFlow.Effect
import BrowserFlow.Failure
import BrowserFlow.Json.Text

/-!
# Files and folders

A disk holds folders and files. A path is a list of names between slashes, and two dots lead from a
folder back to the one around it. Nothing can be put where the folder around it is missing. A file
holds text, or a value of which it holds the JSON text.
-/

namespace BrowserFlow

/-- A path inside a folder. An absolute path stays as it is. -/
def pathIn (folder path : String) : String :=
  if folder.isEmpty || Text.beginsWith path "/" then path
  else if folder.toList.getLast? = some '/' then folder ++ path
  else folder ++ "/" ++ path

/-- What a file holds. -/
inductive Content
  | text (s : String)
  /-- The JSON text of a value, spread over lines. -/
  | json (v : Value)
  deriving Inhabited

namespace Content

/-- The text of a file. -/
def toText : Content → String
  | text s => s
  | json v => Json.text .lines v

/-- The value that a file holds. -/
def value : Content → Except Fault Value
  | text s => (Json.read s).mapError Json.ReadError.toFault
  | json v => .ok (Json.plain v)

/-- Whether a file holds nothing but blanks. -/
def isBlank : Content → Bool
  | text s => Text.isBlankText s
  | json _ => false

end Content

structure Disk where
  /-- The files by their paths. -/
  files : Table Content := []
  /-- The paths of the folders, without that of the current folder. -/
  folders : List String := []
  deriving Inhabited

namespace Disk

/-! ## Paths -/

/-- Whether a text can be a path: the character zero stands in none. -/
def isPath (path : String) : Bool :=
  !path.toList.contains '\x00'

/-- Whether a path ends in a name. Where it ends in a slash or in dots there can only be a folder. -/
def endsInName (path : String) : Bool :=
  match (Text.splitChars '/' path.toList).getLast? with
  | some name => !(["", ".", ".."].contains (String.ofList name))
  | none => false

/-- The path of names, given from the last to the first. -/
def pathOf (reversed : List String) : String :=
  "/".intercalate reversed.reverse

/-- Whether names, given from the last to the first, lead to a folder. The folders around the
current one are there. -/
def leadsToFolder (d : Disk) (names : List String) : Bool :=
  names.all (· == "..") || d.folders.contains (pathOf names)

/-- Where two dots lead from a place that earlier names have led to. Around the outermost folder of
all, to which an absolute path leads first, there is none. -/
def back : List String → List String
  | [] => [".."]
  | last :: before =>
    if last == ".." then ".." :: last :: before else if last == "/" then last :: before else before

/-- Follows names from where earlier ones have led. -/
def follow (d : Disk) (reached : List String) : List String → Option (List String)
  | [] => some reached
  | name :: rest =>
    if name == "" || name == "." then follow d reached rest
    else if name == ".." then
      if d.leadsToFolder reached then follow d (back reached) rest else none
    else follow d (name :: reached) rest

/-- The names to which a path leads, from the last to the first. -/
def names? (d : Disk) (path : String) : Option (List String) :=
  let names := (Text.splitChars '/' path.toList).map String.ofList
  d.follow (if Text.beginsWith path "/" then ["/"] else []) names

/-- The path without detours. -/
def resolve? (d : Disk) (path : String) : Option String :=
  (d.names? path).map pathOf

/-- Whether a path leads to a folder. -/
def isFolder (d : Disk) (path : String) : Bool :=
  (d.names? path).any d.leadsToFolder

/-- The file to which a path leads. -/
def file? (d : Disk) (path : String) : Option Content :=
  (d.resolve? path).bind d.files.get?

/-- Whether a path leads to anything. -/
def has (d : Disk) (path : String) : Bool :=
  d.isFolder path || (d.file? path).isSome

/-- The files inside the current folder. -/
def inside (d : Disk) : Table Content :=
  d.files.filter fun e => !Text.beginsWith e.1 "../"

/-! ## Changes -/

/-- Makes the folder of each of some names, given from the first to the last. -/
def makeFrom (d : Disk) (reached : List String) : List String → Except Fault Disk
  | [] => .ok d
  | name :: rest =>
    if name == "" || name == "." then makeFrom d reached rest
    else if name == ".." then makeFrom d (back reached) rest
    else
      let path := pathOf (name :: reached)
      if d.files.contains path then .error .occupied
      else
        let d := if d.folders.contains path then d else { d with folders := d.folders ++ [path] }
        makeFrom d (name :: reached) rest

/-- Makes a folder and all folders around it, unless they are there. -/
def makeFolder (path : String) : Effect Fault Disk Unit :=
  .of fun d =>
    match d.makeFrom [] ((Text.splitChars '/' path.toList).map String.ofList) with
    | .ok d => (.ok (), d)
    | .error f => (.error f, d)

/-- Puts a file, in the place of an earlier one. -/
def write (path : String) (content : Content) : Effect Fault Disk Unit :=
  .of fun d =>
    match d.names? path with
    | none => (.error .noFile, d)
    | some reached =>
      if d.leadsToFolder reached then (.error .folder, d)
      else if !(endsInName path && d.leadsToFolder (reached.drop 1)) then (.error .noFile, d)
      else (.ok (), { d with files := d.files.put (pathOf reached) content })

/-- Puts the JSON text of a value into a file. A value that has none leaves the file empty. -/
def writeJson (allowForeign : Bool) (path : String) (v : Value) : Effect Fault Disk Unit := do
  write path (.text "")
  if Json.writable allowForeign v then write path (.json v)
  else throw (.kind "Object is not JSON serializable")

/-- What a file holds. -/
def read (path : String) : Effect Fault Disk Content := do
  let d ← get
  if d.isFolder path then throw .folder
  match d.file? path with
  | some content => return content
  | none => throw .noFile

/-- Removes a file. -/
def remove (path : String) : Effect Fault Disk Unit := do
  let _ ← read path
  modify fun d =>
    match d.resolve? path with
    | some key => { d with files := d.files.erase key }
    | none => d

/-- The path of a folder as a beginning of the paths of what is in it. -/
def lead (here : List String) : String :=
  if here = [] then "" else pathOf here ++ "/"

/-- The name that a path ends in, if it goes on from a beginning by one name. -/
def nameAfter? (beginning path : String) : Option String :=
  match Text.dropPrefix? beginning.toList path.toList with
  | some (c :: cs) => if (c :: cs).contains '/' then none else some (String.ofList (c :: cs))
  | _ => none

/-- The names of what is directly inside a folder. -/
def namesIn (d : Disk) (folder : String) : List String :=
  match d.names? folder with
  | none => []
  | some here => (d.files.keys ++ d.folders).filterMap (nameAfter? (lead here))

end Disk

end BrowserFlow
