import IconCatalog.Run
import IconCatalog.Settings.Document
/-!
The settings file of a project. Loading never fails: without a readable file the defaults hold.
-/
namespace IconCatalog.Settings
open Text

def path (root : Path) : Path := root.child ".crypto-icons.json".toList

/-- The settings on a disk, with the remark that is due if the file is there and cannot be used. -/
def onDisk (root : Path) (d : Disk) : Settings × Option Notice :=
  match d.readText (path root) with
  | .error .missing => (empty, none)
  | .error _ => (empty, some (.unreadableSettings (path root)))
  | .ok t =>
    match read? t with
    | none => (empty, some (.unparsableSettings (path root)))
    | some s => (s, none)

def load (root : Path) : Run Settings := do
  let (s, notice?) := onDisk root (← Run.disk)
  if let some notice := notice? then Run.note notice
  return s

def save (root : Path) (s : Settings) : Run Unit :=
  Run.change (·.writeText (path root) (s.render ++ ['\n']))

end IconCatalog.Settings
