import IconCatalog.Table.Printer
import IconCatalog.Table.Reader
/-!
A source file that holds the lookup table. Only the body of the declaration is ever printed anew;
the text before and after it is kept as it is.
-/
namespace IconCatalog
open Text Source

structure TableFile where
  head : Text
  table : Table
  tail : Text
  layout : Layout

namespace TableFile

def isEntryLine (line : Text) : Bool :=
  line.head? = some doubleQuote || line.head? = some singleQuote

def read (source : Text) : Except Fault TableFile := do
  let found ← Table.declaration.find source
  let table ← Table.ofEntries found.items
  return {
    head := found.head
    table := table
    tail := found.tail
    layout := .detect source found.body isEntryLine }

def render (f : TableFile) : Text := f.head ++ f.table.renderBody f.layout ++ f.tail

end TableFile
end IconCatalog
