import IconCatalog.Sorted
import IconCatalog.Table.Printer
import IconCatalog.Table.Reader
/-!
The image helpers: the constant with the image base, and one function for each category that builds
image addresses on it. Pointing them at another base replaces each definition whole and leaves the
lookup table alone.
-/
namespace IconCatalog.ImageHelper
open Text Source

def baseName : Text := "baseImgUrl".toList

def baseDefinition (base : Text) : Text :=
  "export const ".toList ++ baseName ++ " = \x22".toList ++ base ++ "\x22;".toList

def helperDefinition (c : Category) : Text :=
  "export const ".toList ++ c.helper ++ " = (".toList ++ c.parameter ++
    ": string) => `$\x7b".toList ++ baseName ++ "\x7d/".toList ++ c.segment ++
    "/$\x7b".toList ++ c.parameter ++ "\x7d.png`;".toList

def definitions (base : Text) (newline : Newline) : Text :=
  baseDefinition base ++ newline.text ++
    Category.all.flatMap fun c => helperDefinition c ++ newline.text

def definitionOf (name : Text) : Pattern := .sequence
  [.word "export".toList, .space, .word "const".toList, .space, .word name, .gap,
    .optional (.typeMark ['=', ';']), .char '=']

/-- The position of the first line feed with a character other than a blank behind it: from there
on, the text belongs to another statement. -/
def nextStatement? : Text → Option Nat
  | [] => none
  | c :: t =>
    if c = '\n' && t.head?.any (!isBlank ·) then some 0 else (nextStatement? t).map (· + 1)

/-- The length of the definition at the start of a text. It runs through its semicolon over as many
lines as it takes; without one before the next unindented line, it ends with its first line. -/
def definitionLength (t : Text) : Nat :=
  match statementLength? t with
  | none => firstLineLength t
  | some n => if (nextStatement? t).any (· < n) then firstLineLength t else n

structure Replacement where
  span : Span
  text : Text

def replacementOf? (source name definition : Text) : Option Replacement :=
  (firstOccurrence? (definitionOf name) source).map fun found =>
    ⟨⟨found.start, found.start + definitionLength (source.drop found.start)⟩, definition⟩

def replacements (source base : Text) : List Replacement :=
  sortBy (fun r s => r.span.start ≤ s.span.start)
    ((replacementOf? source baseName (baseDefinition base)).toList ++
      Category.all.filterMap fun c => replacementOf? source c.helper (helperDefinition c))

/-- The text from `position` on with the replacements made. -/
def splice (source : Text) (position : Nat) : List Replacement → Text
  | [] => source.drop position
  | r :: rs =>
    (source.take r.span.start).drop position ++ r.text ++ splice source r.span.stop rs

/-- Points the helpers at `base` and tells how many definitions were replaced. Where there is none,
all of them are put right before the lookup table. -/
def retarget (source base : Text) : Except Fault (Text × Nat) :=
  match replacements source base with
  | [] =>
    match firstOccurrence? Table.header source with
    | none => .error (.noTable Table.declaredName)
    | some header =>
      let newline := Newline.detect source
      .ok (source.take header.start ++ definitions base newline ++ newline.text ++
        source.drop header.start, 0)
  | r :: rs => .ok (splice source 0 (r :: rs), rs.length + 1)

end IconCatalog.ImageHelper
