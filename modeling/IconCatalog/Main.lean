import IconCatalog.CommandLine.Response
import IconCatalog.Url.Host
/-!
The tool on a machine. What a command may look at is taken up into a disk value, the command is run
on it, and what has changed is written back.
-/
namespace IconCatalog.Machine
open Text

def nameOf (place : Place) : String := String.ofList ('/' :: joined "/".toList place)

def standingAt? (place : Place) : IO (Option Node) := do
  let path := (← IO.currentDir) / nameOf place
  if ← path.isDir then return some .folder
  else if ← path.pathExists then return some (.file (← IO.FS.readBinFile path))
  else return none

def placesAlong : Place → List Text → List Place
  | _, [] => []
  | place, part :: parts =>
    let next := Disk.enter place part
    next :: placesAlong next parts

/-- Takes up a path of the machine into a disk, with all places on the way to it. -/
def takeUp (d : Disk) (p : Path) : IO Disk := do
  let mut d := d
  for place in placesAlong (if p.isAbsolute then [] else d.home) (Disk.route p) do
    if (d.node? place).isNone then
      if let some node ← standingAt? place then d := d.put place node
  return d

def writeBack (before after : Disk) : IO Unit := do
  for (place, node) in after.nodes.reverse do
    if before.node? place ≠ some node then
      match node with
      | .folder => IO.FS.createDir (nameOf place)
      | .file content => IO.FS.writeBinFile (nameOf place) content

def diskFor (root : Path) (words : List Text) : IO Disk := do
  let start ← takeUp ⟨[], root.parts⟩ (Settings.path root)
  match CommandLine.read words with
  | .halt _ => return start
  | .run _ command =>
    (command.reach root (Settings.onDisk root start).1).foldlM takeUp start

def answer (words : List Text) : IO UInt32 := do
  let root : Path := ⟨(← IO.currentDir).toString.toList⟩
  let d ← diskFor root words
  let r := CommandLine.respond Url.read? root d words
  writeBack d r.disk
  IO.print (String.ofList r.printed)
  for notice in r.notices do
    IO.eprintln (String.ofList ((if notice.isWarning then " WARN " else " INFO ").toList ++
      notice.message))
  if let some error := r.error? then IO.eprintln (String.ofList error)
  return UInt32.ofNat r.exitCode

end IconCatalog.Machine

def main (args : List String) : IO UInt32 := do
  try
    IconCatalog.Machine.answer (args.map String.toList)
  catch error =>
    IO.eprintln s!"Error: {error}"
    return 1
