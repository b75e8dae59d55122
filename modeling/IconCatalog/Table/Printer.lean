import IconCatalog.Layout
import IconCatalog.Table.Basic
/-!
Printing the lookup table. Each group opens with its placeholder comment; an entry takes four lines,
and every entry but the last of the whole table is followed by a comma.
-/
namespace IconCatalog.Table
open Text

def renderEntry (layout : Layout) (e : Entry) : Text :=
  let nl := layout.newline.text
  layout.indent ++ "\x22".toList ++ e.name ++ "\x22: \x7b".toList ++ nl ++
  layout.indent ++ layout.indent ++ "lightMode: ".toList ++ e.light ++ ",".toList ++ nl ++
  layout.indent ++ layout.indent ++ "darkMode: ".toList ++ e.dark ++ nl ++
  layout.indent ++ "\x7d".toList

def renderEntries (layout : Layout) (more : Bool) : List Entry → Text
  | [] => []
  | e :: es =>
    renderEntry layout e ++ (if es = [] && !more then [] else [',']) ++ layout.newline.text ++
      renderEntries layout more es

def renderGroup (layout : Layout) (category : Category) (es : List Entry) (more : Bool) : Text :=
  layout.indent ++ category.placeholder ++ layout.newline.text ++ renderEntries layout more es

/-- The blank line that sets a group with entries off from the next one. -/
def separator (layout : Layout) (es : List Entry) : Text :=
  if es = [] then [] else layout.newline.text

def renderBody (t : Table) (layout : Layout) : Text :=
  layout.newline.text ++
  renderGroup layout .token t.tokens (t.wallets ≠ [] || t.systems ≠ []) ++
  separator layout t.tokens ++
  renderGroup layout .wallet t.wallets (t.systems ≠ []) ++
  separator layout t.wallets ++
  renderGroup layout .system t.systems false

def standardHeader : Text := "export const iconMap: Record<string, ImagePaths> = \x7b".toList

def emptyDeclaration (layout : Layout) : Text :=
  standardHeader ++ renderBody empty layout ++ "\x7d;".toList

end IconCatalog.Table
