import BrowserFlow.Program
import BrowserFlow.World.Script

/-!
# The command line

The first argument names a file with the description of a world, as JSON. The next two are the
instruction and the address of the first page. The lines of the standard input answer the questions.
What is printed goes to the standard output, the warnings to the standard error, and the files are
written where their paths say.
-/

namespace BrowserFlow.CommandLine

/-- The instruction of a run that is given none. -/
def usualInstruction : String := "extract all story titles on the front page"

/-- The address for a run that is given none. -/
def usualAddress : String := "https://news.ycombinator.com"

/-- The variables of the environment that matter. -/
def environment : IO (Table String) := do
  let mut found := []
  for name in Settings.variableNames do
    if let some value ← IO.getEnv name then found := found ++ [(name, value)]
  return found

/-- The lines of a text, without their ends. -/
def linesOf (text : String) : List String :=
  let lines := text.splitOn "\n"
  if lines.getLast? = some "" then lines.dropLast else lines

/-- The folder around a path, if a folder is named in it. -/
def folderOf? (path : String) : Option String :=
  match (path.splitOn "/").dropLast with
  | [] => none
  | names => some ("/".intercalate names)

/-- Writes the files of a disk. -/
def writeFiles (d : Disk) : IO Unit := do
  for (path, content) in d.files do
    if let some folder := folderOf? path then
      if !folder.isEmpty then IO.FS.createDirAll folder
    IO.FS.writeFile path content.toText

/-- Runs the program in a world. -/
def work (s : Settings) (intent url : String) (w : World) : IO UInt32 := do
  let (result, after) := Program.run s intent url w
  IO.print after.printed
  for warning in after.warnings do IO.eprintln warning
  writeFiles after.disk
  match result with
  | .ok _ => return 0
  | .error f =>
    IO.eprintln f.message
    return 1

/-- Reads the description of the world and runs the program in it. -/
def start (script intent url : String) : IO UInt32 := do
  match Program.settings (← environment) with
  | .error f =>
    IO.eprintln f.message
    return 1
  | .ok s =>
    match Json.read (← IO.FS.readFile script) with
    | .error _ =>
      IO.eprintln "the description of the world is no JSON"
      return 1
    | .ok description =>
      let typed ← (← IO.getStdin).readToEnd
      work s intent url (World.scripted description (linesOf typed))

end BrowserFlow.CommandLine

def main (args : List String) : IO UInt32 :=
  match args with
  | script :: rest =>
    BrowserFlow.CommandLine.start script
      (rest.headD BrowserFlow.CommandLine.usualInstruction)
      ((rest.drop 1).headD BrowserFlow.CommandLine.usualAddress)
  | [] => do
    IO.eprintln "the first argument is missing: a file with the description of a world"
    return 2
