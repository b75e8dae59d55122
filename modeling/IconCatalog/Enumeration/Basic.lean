import IconCatalog.Layout
import IconCatalog.Source.Declaration
import IconCatalog.Category
import IconCatalog.Sorted
import IconCatalog.Text.Order
/-!
The enumeration of a category: its icon names, one member each, sorted by every insertion. In print,
a member is its own value; every member but the last is followed by a comma, and a name that cannot
stand without quotes is quoted. Without members an example stands in a comment.
-/
namespace IconCatalog

abbrev Members := List Text

namespace Members
open Text

def insert (ms : Members) (name : Text) : Members :=
  if ms.contains name then ms else sortBy atMost (ms ++ [name])

def erase (ms : Members) (name : Text) : Members := ms.filter (· ≠ name)

end Members

namespace Enumeration
open Text Source

def renderMember (layout : Layout) (name : Text) : Text :=
  layout.indent ++
  (if isIdentifier name then name else "\x22".toList ++ name ++ "\x22".toList) ++
  " = \x22".toList ++ name ++ "\x22".toList

def renderMembers (layout : Layout) : Members → Text
  | [] => []
  | m :: ms =>
    renderMember layout m ++ (if ms = [] then [] else [',']) ++ layout.newline.text ++
      renderMembers layout ms

def renderExample (category : Category) (layout : Layout) : Text :=
  layout.indent ++ "// Example: ".toList ++ category.sample ++ " = \x22".toList ++
    category.sample ++ "\x22".toList ++ layout.newline.text

def renderBody (category : Category) (ms : Members) (layout : Layout) : Text :=
  layout.newline.text ++
    (if ms = [] then renderExample category layout else renderMembers layout ms)

def emptyDeclaration (category : Category) (layout : Layout) : Text :=
  "export enum ".toList ++ category.enumName ++ " \x7b".toList ++ renderBody category [] layout ++
    "\x7d".toList

end Enumeration
end IconCatalog
