import IconCatalog.Url.Admitted
import IconCatalog.Url.Composition
import IconCatalog.Url.Direction
import IconCatalog.Url.Joiner
import IconCatalog.Url.Mark
import IconCatalog.Url.Punycode
/-!
Labels of host names, the parts between the dots. A label that starts with `xn--` stands for text
outside ASCII and must spell it in the one way that it would be spelled anew.
-/
namespace IconCatalog.Url.Label
open Text

def maxSpelling : Nat := 2000
def maxSpelled : Nat := 1000

def text? (label : Text) : Option Text :=
  match after? "xn--".toList label with
  | none => some label
  | some spelling =>
    if spelling.length ≤ maxSpelling && spelling.all isPlain then Punycode.decode? spelling
    else none

/-- Whether a text outside ASCII may be spelled in a label: its characters are admitted and
composed, it does not start with a mark, and its joiners are in place. -/
def isSpellable (t : Text) : Bool :=
  t.length ≤ maxSpelled && t.all isAdmitted && !t.head?.any isMark && Composition.isComposed t &&
    Joiner.areInPlace [] t

def isValid (t : Text) : Bool := t.all isPlain || isSpellable t

def areValid (labels : List Text) : Bool :=
  match labels.mapM text? with
  | none => false
  | some ts => ts.all isValid && (!ts.any Direction.turns || ts.all Direction.isInOrder)

def spell (label : Text) : Text :=
  if label.all isPlain then label else "xn--".toList ++ Punycode.encode label

end IconCatalog.Url.Label
