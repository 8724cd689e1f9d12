import BrowserFlow.Extraction.Rendering
import BrowserFlow.World.Basic

/-!
# Keeping extracted data

Data that a script returned is kept in a file and shown. The name of the file is given, or it is
made of the time and a number.
-/

namespace BrowserFlow

/-- Where extracted data is kept, and whether it is shown. -/
structure DataFolder where
  path : String
  display : Bool := true

namespace DataFolder

/-- The name of a file that is given none. -/
def fileName (format : DataFormat) : Effect Fault World String := do
  let stamp := Clock.stamp (← get).clock
  let number ← World.draw
  return "data-" ++ stamp ++ "-" ++ World.figures number ++ "." ++ format.name

/-- The line above and below what is shown. -/
def rule : String :=
  String.ofList (List.replicate 60 '─')

/-- Whether the folder and a name for a file in it can be parts of a path. -/
def accepts (folder : DataFolder) (filename : Option String) : Bool :=
  Disk.isPath folder.path && filename.all Disk.isPath

/-- The fault of what can be part of no path. -/
def noPath : Fault :=
  .invalid "embedded null byte"

/-- Keeps data in a file, and gives the path of the file. What can be part of no path is refused
without a look at the disk. -/
def save (folder : DataFolder) (instruction : Option String) (data : Value)
    (format filename : Option String) : Effect Fault World String := do
  if !folder.accepts filename then throw noPath
  let format := Extraction.formatFor instruction format data
  let (content, shown) := Extraction.render format data
  World.onDisk (Disk.makeFolder folder.path)
  let name ← match filename with
    | none | some "" => fileName format
    | some name => pure name
  let path := pathIn folder.path name
  World.onDisk (Disk.write path (.text content))
  if folder.display then
    World.print "\n📊 提取到的数据:"
    World.print rule
    World.print shown
    World.print rule
    World.print ("💾 数据已保存到: " ++ path)
  return path

end DataFolder

end BrowserFlow
