import IconCatalog.Source.Occurrence
import IconCatalog.Text.Search
/-!
Listing an image host in the text of a `next.config` file. A patch is a plain insertion at the first
place that can be recognised; where there is none, the text is left to its owner.
-/
namespace IconCatalog.RemotePattern
open Text Source

def entry (host : Text) : Text :=
  "      \x7b protocol: 'https', hostname: '".toList ++ host ++ "' \x7d".toList

def arrayProperty (host : Text) : Text :=
  "\n    remotePatterns: [\n".toList ++ entry host ++ ",\n    ],".toList

def imagesProperty (host : Text) : Text :=
  "\n  images: \x7b".toList ++ arrayProperty host ++ "\n  \x7d,".toList

def freshConfig (host : Text) : Text :=
  "/** @type \x7bimport('next').NextConfig\x7d */\nconst nextConfig = \x7b".toList ++
    imagesProperty host ++ "\n\x7d;\n\nmodule.exports = nextConfig;\n".toList

def property (name : String) (bracket : Char) : Pattern := .sequence
  [.word name.toList, .gap, .char ':', .gap, .char bracket]

def arrayOpening : Pattern := property "remotePatterns" '['

def imagesOpening : Pattern := property "images" '\x7b'

def exportsOpening : Pattern := .sequence
  [.word "module.exports".toList, .gap, .char '=', .gap, .char '\x7b']

def defaultOpening : Pattern := .sequence
  [.word "export".toList, .space, .word "default".toList, .gap, .char '\x7b']

/-- An object that a name is bound to, as in `const config: Type = {`. -/
def bindingOpening : Pattern := .sequence
  [.either (.word "const".toList) (.either (.word "let".toList) (.word "var".toList)), .space,
    .name, .gap, .optional (.typeMark ['=', ';']), .char '=', .gap, .char '\x7b']

def objectOpening? (t : Text) : Option Span :=
  ((firstOccurrence? exportsOpening t).or (firstOccurrence? defaultOpening t)).or
    (firstOccurrence? bindingOpening t)

def insertAt (t : Text) (position : Nat) (inserted : Text) : Text :=
  t.take position ++ inserted ++ t.drop position

/-- Cuts a text before the `]` that closes the innermost of `depth` open arrays and, with it, all of
them. Only square brackets are counted, wherever they stand. -/
def cutAtClosing? : Nat → Text → Option (Text × Text)
  | _, [] => none
  | depth, c :: t =>
    if c = ']' && depth ≤ 1 then some ([], c :: t)
    else
      let depth := if c = '[' then depth + 1 else if c = ']' then depth - 1 else depth
      (cutAtClosing? depth t).map fun (inside, rest) => (c :: inside, rest)

def lastLine (t : Text) : Text := (t.reverse.takeWhile (· ≠ '\n')).reverse

/-- Appends the pattern to the array that opens right before `start`. The closing bracket keeps its
indent where it stands on a line of its own. -/
def append? (t : Text) (start : Nat) (host : Text) : Option Text :=
  (cutAtClosing? 1 (t.drop start)).map fun (inside, rest) =>
    let upToClosing := t.take start ++ inside
    let elements := trim inside
    let comma := if elements = [] || elements.getLast? = some ',' then [] else [',']
    let indent := lastLine upToClosing
    trimEnd upToClosing ++ comma ++ "\n".toList ++ entry host ++ ",\n".toList ++
      (if isAllBlank indent then indent else []) ++ rest

/-- The text with the host listed. A legacy host is replaced wherever it occurs; without one, the
pattern is inserted at the first place of the most specific kind. -/
def patch? (t host : Text) (legacy : List Text) : Option Text :=
  match legacy.find? (mentions · t) with
  | some old => some (replaceAll old host t)
  | none =>
    match firstOccurrence? arrayOpening t with
    | some found => append? t found.stop host
    | none =>
      match firstOccurrence? imagesOpening t with
      | some found => some (insertAt t found.stop (arrayProperty host))
      | none => (objectOpening? t).map fun found => insertAt t found.stop (imagesProperty host)

end IconCatalog.RemotePattern
