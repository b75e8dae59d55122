import IconCatalog.Enumeration.Basic
import IconCatalog.Enumeration.Reader
/-!
A source file that holds the enumeration of a category. As with the lookup table, only the body of
the declaration is printed anew.
-/
namespace IconCatalog
open Text Source

structure EnumFile where
  category : Category
  head : Text
  members : Members
  tail : Text
  layout : Layout

namespace EnumFile

def isMemberLine (line : Text) : Bool :=
  line.head?.any fun c => isNameChar c || c = doubleQuote

def read (category : Category) (source : Text) : Except Fault EnumFile := do
  let found ← (Enumeration.declaration category).find source
  return {
    category := category
    head := found.head
    members := found.items
    tail := found.tail
    layout := .detect source found.body isMemberLine }

def render (f : EnumFile) : Text :=
  f.head ++ Enumeration.renderBody f.category f.members f.layout ++ f.tail

end EnumFile
end IconCatalog
