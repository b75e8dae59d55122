import IconCatalog.Text.Basic
import IconCatalog.Text.Search
import IconCatalog.Source.Token
/-!
Indentation and line ends of a generated file. They are read off the file before each edit, so that
a printed body looks like the text around it.
-/
namespace IconCatalog
open Text

inductive Newline where
  | lf
  | crlf
  deriving DecidableEq, Repr

namespace Newline

def text : Newline → Text
  | lf => ['\n']
  | crlf => ['\r', '\n']

/-- A text with one carriage return and line feed in a row uses them for all its line ends. -/
def detect (source : Text) : Newline := if mentions ['\r', '\n'] source then crlf else lf

end Newline

structure Layout where
  indent : Text
  newline : Newline
  deriving DecidableEq, Repr

namespace Layout

def standard : Layout := ⟨"  ".toList, .lf⟩

def indentOf (line : Text) : Text := line.takeWhile fun c => c = ' ' || c = '\t'

/-- The first line that holds an entry sets the indent, else the first comment line. Without either
of them, or where that line is not indented, the standard indent is used. -/
def detect (source body : Text) (isEntry : Text → Bool) : Layout :=
  let filled := (lines body).filter (!isAllBlank ·)
  let line := (filled.find? fun l => isEntry (trimStart l)).or
    (filled.find? fun l => startsWith (trimStart l) Source.commentMark)
  match indentOf (line.getD []) with
  | [] => ⟨standard.indent, .detect source⟩
  | indent => ⟨indent, .detect source⟩

end Layout
end IconCatalog
