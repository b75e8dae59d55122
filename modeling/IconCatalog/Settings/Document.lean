import IconCatalog.Json.Value
import IconCatalog.Settings.Basic
/-!
The settings as JSON. Reading takes an object with the three keys, each at most once and beside any
others, or an array of up to three values in the order of the keys; `null` is an absent value.
Writing leaves absent values out.
-/
namespace IconCatalog.Settings
open Text Json

def directoryKey : Text := "defaultDirectory".toList
def imageBaseKey : Text := "imageBasePath".toList
def darkClassKey : Text := "darkModeClass".toList

def valueOf? : Value → Option (Option Text)
  | .null => some none
  | .string ps => (textOf? ps).map some
  | _ => none

structure Given where
  directory : Option (Option Text)
  imageBase : Option (Option Text)
  darkClass : Option (Option Text)

namespace Given

def none : Given := ⟨.none, .none, .none⟩

def settings (g : Given) : Settings :=
  ⟨g.directory.getD .none, g.imageBase.getD .none, g.darkClass.getD .none⟩

/-- Takes one more member of an object. A known key must be new and have a proper value. -/
def add (g : Given) (member : List Piece × Value) : Option Given := do
  let key ← textOf? member.1
  if key = directoryKey then
    if g.directory.isSome then failure
    else return { g with directory := some (← valueOf? member.2) }
  else if key = imageBaseKey then
    if g.imageBase.isSome then failure
    else return { g with imageBase := some (← valueOf? member.2) }
  else if key = darkClassKey then
    if g.darkClass.isSome then failure
    else return { g with darkClass := some (← valueOf? member.2) }
  else return g

end Given

def ofValue? : Value → Option Settings
  | .object members => (members.foldlM Given.add .none).map Given.settings
  | .array items =>
    match items.mapM valueOf? with
    | some [] => some empty
    | some [a] => some ⟨a, none, none⟩
    | some [a, b] => some ⟨a, b, none⟩
    | some [a, b, c] => some ⟨a, b, c⟩
    | _ => none
  | _ => none

def read? (t : Text) : Option Settings := (Value.read? t).bind ofValue?

def written (s : Settings) : List (Text × Text) :=
  [(directoryKey, s.directory), (imageBaseKey, s.imageBase), (darkClassKey, s.darkClass)].filterMap
    fun (key, value) => value.map (key, ·)

def renderMember (key value : Text) : Text :=
  "  ".toList ++ Json.writeText key ++ ": ".toList ++ Json.writeText value

def render (s : Settings) : Text :=
  match s.written with
  | [] => "\x7b\x7d".toList
  | ms =>
    "\x7b\n".toList ++ joined ",\n".toList (ms.map fun (key, value) => renderMember key value) ++
      "\n\x7d".toList

end IconCatalog.Settings
