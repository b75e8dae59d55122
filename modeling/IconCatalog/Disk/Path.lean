import IconCatalog.Text.Basic
/-!
Paths as they are written and as they are read: joining and showing a path work on its text, folding
and comparing on its components. Folding a path drops `.` and lets `..` take back the component
before it.
-/
namespace IconCatalog
open Text

structure Path where
  text : Text
  deriving DecidableEq, Repr

inductive Component where
  | root
  | current
  | parent
  | name (n : Text)
  deriving DecidableEq, Repr

namespace Path

def isAbsolute (p : Path) : Bool := p.text.head? = some '/'

def parts (p : Path) : List Text := (p.text.splitOn '/').filter (· ≠ [])

/-- The component that a part stands for; a part `.` after the first one stands for none. -/
def readPart? (isFirst : Bool) (part : Text) : Option Component :=
  if part = ['.'] then if isFirst then some .current else none
  else if part = ['.', '.'] then some .parent
  else some (.name part)

def components (p : Path) : List Component :=
  if p.isAbsolute then .root :: p.parts.filterMap (readPart? false)
  else
    match p.parts with
    | [] => []
    | first :: rest => (readPart? true first).toList ++ rest.filterMap (readPart? false)

def join (p q : Path) : Path :=
  if q.isAbsolute then q
  else if p.text = [] || p.text.getLast? = some '/' then ⟨p.text ++ q.text⟩
  else ⟨p.text ++ '/' :: q.text⟩

def child (p : Path) (name : Text) : Path := p.join ⟨name⟩

end Path

namespace Component

def path : Component → Path
  | root => ⟨['/']⟩
  | current => ⟨['.']⟩
  | parent => ⟨['.', '.']⟩
  | name n => ⟨n⟩

/-- One step of folding, on the components read so far with the last one first. A `..` takes back
whatever it finds except the root; without anything to take back it is kept. -/
def fold (stack : List Component) : Component → List Component
  | current => stack
  | parent =>
    match stack with
    | [] => [parent]
    | root :: below => parent :: root :: below
    | _ :: below => below
  | c => c :: stack

end Component

namespace Path

def ofComponents (cs : List Component) : Path := cs.foldl (fun p c => p.join c.path) ⟨[]⟩

def normalize (p : Path) : Path := ofComponents (p.components.foldl Component.fold []).reverse

def remaining? : List Component → List Component → Option (List Component)
  | [], cs => some cs
  | _ :: _, [] => none
  | b :: bs, c :: cs => if b = c then remaining? bs cs else none

def relativeTo (base p : Path) : Path :=
  match remaining? base.components p.components with
  | some cs => ofComponents cs
  | none => p

end Path
end IconCatalog
