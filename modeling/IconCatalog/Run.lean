import IconCatalog.Failure
import IconCatalog.Notice
/-!
A run goes from one disk to the next, leaving remarks and printed lines on its way. What was written
before a failure stays written.
-/
namespace IconCatalog
open Text

structure Progress where
  disk : Disk
  notices : List Notice
  printed : Text

def Progress.start (disk : Disk) : Progress := ⟨disk, [], []⟩

abbrev Run := ExceptT Failure (StateM Progress)

namespace Run

def fail (cause : Cause) : Run α := throw ⟨[], cause⟩

def within (context : Context) (r : Run α) : Run α :=
  tryCatch r fun f => throw { f with contexts := context :: f.contexts }

def note (n : Notice) : Run Unit := modify fun p => { p with notices := p.notices ++ [n] }

def say (line : Text) : Run Unit :=
  modify fun p => { p with printed := p.printed ++ line ++ ['\n'] }

def disk : Run Disk := return (← get).disk

def change (operation : Disk → Except DiskFault Disk) : Run Unit := do
  match operation (← disk) with
  | .ok d => modify fun p => { p with disk := d }
  | .error fault => fail (.disk fault)

def look (operation : Disk → Except DiskFault α) : Run α := do
  match operation (← disk) with
  | .ok a => return a
  | .error fault => fail (.disk fault)

def readGenerated (path : Path) : Run Text := do
  match (← disk).readText path with
  | .ok t => return t
  | .error .missing => fail (.missingFile path)
  | .error fault => fail (.disk fault)

def createFolder (path : Path) : Run Unit := do
  match (← disk).createFolder path with
  | .ok d => change fun _ => .ok d
  | .error fault => unless (← disk).hasFolder path do fail (.disk fault)

/-- Creates the first folder, and before it those of the others, from the inside out, that it needs
and that are missing. -/
def createInside : List Path → Run Unit
  | [] => return
  | path :: outer => do
    if (← disk).createFolder path matches .error .missing then createInside outer
    createFolder path

/-- Creates a folder and all missing folders on the way to it, unless the path as a whole leads
nowhere. -/
def createFolders (path : Path) : Run Unit := do
  match Disk.pathFault? path with
  | some fault => fail (.disk fault)
  | none => createInside (ways path)
where
  /-- The path itself and all paths on the way to it, the longest first. -/
  ways (path : Path) : List Path :=
    let cs := path.components
    (List.range cs.length).map fun n => Path.ofComponents (cs.take (cs.length - n))

end Run
end IconCatalog
