import IconCatalog.Disk.Path
/-!
Files and folders as a value. A disk knows what stands at each place below its root and which folder
relative paths start from; an operation gives the changed disk or the reason why it is refused.
-/
namespace IconCatalog
open Text

inductive Node where
  | file (content : ByteArray)
  | folder

instance : DecidableEq Node
  | .folder, .folder => isTrue rfl
  | .folder, .file _ => isFalse nofun
  | .file _, .folder => isFalse nofun
  | .file a, .file b =>
    match ByteArray.instDecidableEq a b with
    | isTrue h => isTrue (h ▸ rfl)
    | isFalse h => isFalse fun same => h (Node.file.inj same)

abbrev Place := List Text

inductive DiskFault where
  | missing
  | notFolder
  | isFolder
  | taken
  | nameTooLong
  | nulInPath
  | notText
  deriving DecidableEq, Repr

structure Disk where
  nodes : List (Place × Node)
  home : Place

namespace Disk

def encode (t : Text) : ByteArray := (String.ofList t).toUTF8

def decode? (content : ByteArray) : Option Text := (String.fromUTF8? content).map String.toList

theorem decode?_encode (t : Text) : decode? (encode t) = some t := by
  have h : (String.ofList t).toUTF8.IsValidUTF8 := (String.ofList t).isValidUTF8
  rw [decode?, encode, String.fromUTF8?, dif_pos h, Option.map_some]
  exact congrArg some String.toList_ofList

def node? (d : Disk) (place : Place) : Option Node :=
  if place = [] then some .folder else d.nodes.lookup place

def put (d : Disk) (place : Place) (node : Node) : Disk :=
  { d with nodes := (place, node) :: d.nodes.filter (·.1 ≠ place) }

def remove (d : Disk) (place : Place) : Disk :=
  { d with nodes := d.nodes.filter fun (q, _) => !place.isPrefixOf q }

def maxNameSize : Nat := 255

def enter (place : Place) (part : Text) : Place :=
  if part = ['.'] then place
  else if part = ['.', '.'] then place.dropLast
  else place ++ [part]

/-- Follows parts of a path from a place. All but the last part must lead to a folder. -/
def follow (d : Disk) (place : Place) : List Text → Except DiskFault Place
  | [] => .ok place
  | part :: rest =>
    match d.node? place with
    | none => .error .missing
    | some (.file _) => .error .notFolder
    | some .folder =>
      if byteSize part > maxNameSize then .error .nameTooLong else d.follow (enter place part) rest

/-- The parts to follow; a slash at the end asks for a folder. -/
def route (p : Path) : List Text :=
  p.parts ++ if p.text.getLast? = some '/' then [['.']] else []

def maxPathSize : Nat := 4095

/-- Why a path leads nowhere, whatever a disk holds. -/
def pathFault? (p : Path) : Option DiskFault :=
  if p.text = [] then some .missing
  else if p.text.contains '\x00' then some .nulInPath
  else if byteSize p.text > maxPathSize then some .nameTooLong
  else none

def locate (d : Disk) (p : Path) : Except DiskFault Place :=
  match pathFault? p with
  | some fault => .error fault
  | none => d.follow (if p.isAbsolute then [] else d.home) (route p)

def nodeAt? (d : Disk) (p : Path) : Option Node := (d.locate p).toOption.bind d.node?

def contains (d : Disk) (p : Path) : Bool := (d.nodeAt? p).isSome

def hasFolder (d : Disk) (p : Path) : Bool := d.nodeAt? p matches some .folder

def hasFile (d : Disk) (p : Path) : Bool := d.nodeAt? p matches some (.file _)

def readText (d : Disk) (p : Path) : Except DiskFault Text := do
  let place ← d.locate p
  match d.node? place with
  | none => .error .missing
  | some .folder => .error .isFolder
  | some (.file content) =>
    match decode? content with
    | none => .error .notText
    | some t => .ok t

def writeText (d : Disk) (p : Path) (t : Text) : Except DiskFault Disk := do
  let place ← d.locate p
  match d.node? place with
  | some .folder => .error .isFolder
  | _ => .ok (d.put place (.file (encode t)))

def createText (d : Disk) (p : Path) (t : Text) : Except DiskFault Disk := do
  let place ← d.locate p
  match d.node? place with
  | some _ => .error .taken
  | none => .ok (d.put place (.file (encode t)))

def createFolder (d : Disk) (p : Path) : Except DiskFault Disk := do
  let place ← d.locate p
  match d.node? place with
  | some _ => .error .taken
  | none => .ok (d.put place .folder)

end Disk
end IconCatalog
