import IconCatalog.Enumeration.File
import IconCatalog.Run
import IconCatalog.Category
import IconCatalog.Table.File
/-!
Adding and removing one icon. An edit reads the table file and the enumeration of the category,
settles what becomes of both, and only then writes, the table first. A file is written only if it
changes, so that repeating an edit changes nothing and completes one that was cut short.
-/
namespace IconCatalog
open Text

/-- What is edited besides the icon itself: the target folder and the names with split artwork. -/
structure Workshop where
  target : Path
  artwork : Artwork

inductive Change where
  | applied
  | unchanged
  deriving DecidableEq, Repr

structure Report where
  table : Change
  enumeration : Change
  deriving DecidableEq, Repr

def Report.isNoop (r : Report) : Bool := r = ⟨.unchanged, .unchanged⟩

inductive Action where
  | add
  | remove
  deriving DecidableEq, Repr

/-- What becomes of the two files: the new contents of those that change, and what is worth a
warning. -/
structure Revision where
  table? : Option Table
  members? : Option Members
  warning? : Option Notice

namespace Revision

def none : Revision := ⟨.none, .none, .none⟩

/-- Adding leaves a name alone that some category has. If it is the same category, the enumeration
is still brought in line. -/
def add (w : Workshop) (category : Category) (name : Text) (t : Table) (ms : Members) : Revision :=
  let members? := if ms.contains name then Option.none else some (ms.insert name)
  match t.find? name with
  | .none => ⟨some (t.insert category (.ofIcon category name w.artwork)), members?, .none⟩
  | some owner =>
    if owner = category then
      ⟨.none, members?, some (.alreadyThere name (Site.tablePath w.target))⟩
    else { none with warning? := some (.usedElsewhere name owner (Site.tablePath w.target)) }

/-- Removing takes a name out of the group of the requested category and out of its enumeration,
wherever it is there. -/
def remove (w : Workshop) (category : Category) (name : Text) (t : Table) (ms : Members) :
    Revision :=
  let members? := if ms.contains name then some (ms.erase name) else .none
  if t.holds category name then ⟨some (t.erase category name), members?, .none⟩
  else
    match t.find? name with
    | some owner => ⟨.none, members?, some (.ofOtherCategory name owner category)⟩
    | .none => ⟨.none, members?, some (.notThere name (Site.tablePath w.target))⟩

def make : Action → Workshop → Category → Text → Table → Members → Revision
  | .add => add
  | .remove => remove

def report (r : Revision) : Report where
  table := if r.table?.isSome then .applied else .unchanged
  enumeration := if r.members?.isSome then .applied else .unchanged

end Revision

namespace Edit

/-- Icon names double as enumeration members, so they are made of name characters only. -/
def isValidName (name : Text) : Bool := name ≠ [] && name.all Source.isNameChar

def readTable (w : Workshop) : Run TableFile := do
  let path := Site.tablePath w.target
  match TableFile.read (← Run.readGenerated path) with
  | .ok f => return f
  | .error fault => Run.fail (.malformed path fault)

def readEnum (w : Workshop) (category : Category) : Run EnumFile := do
  let path := Site.enumPath w.target category
  match EnumFile.read category (← Run.readGenerated path) with
  | .ok f => return f
  | .error fault => Run.fail (.malformed path fault)

def tableNotice : Action → Category → Text → Notice
  | .add => .addedToTable
  | .remove => .removedFromTable

def enumNotice : Action → Category → Text → Notice
  | .add => .addedToEnum
  | .remove => .removedFromEnum

/-- The first half of an edit: everything up to the first write. -/
def plan (action : Action) (w : Workshop) (category : Category) (name : Text) :
    Run (TableFile × EnumFile × Revision) := do
  unless isValidName name do Run.fail (.invalidName name)
  let t ← readTable w
  let e ← readEnum w category
  let r := Revision.make action w category name t.table e.members
  return (t, e, r)

def writeTable (action : Action) (w : Workshop) (category : Category) (name : Text)
    (f : TableFile) (t : Table) : Run Unit := do
  Run.change (·.writeText (Site.tablePath w.target) { f with table := t }.render)
  Run.note (tableNotice action category name)

def writeEnum (action : Action) (w : Workshop) (category : Category) (name : Text)
    (f : EnumFile) (ms : Members) : Run Unit := do
  Run.change (·.writeText (Site.enumPath w.target category) { f with members := ms }.render)
  Run.note (enumNotice action category name)

def perform (action : Action) (w : Workshop) (category : Category) (name : Text) : Run Report := do
  let (t, e, r) ← plan action w category name
  if let some warning := r.warning? then Run.note warning
  if let some table := r.table? then writeTable action w category name t table
  if let some members := r.members? then writeEnum action w category name e members
  return r.report

end Edit
end IconCatalog
