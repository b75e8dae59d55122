import IconCatalog.Text.Basic
import IconCatalog.Source.Occurrence
/-!
Declarations that are kept up to date in a source file. A file holds its declaration once: a header,
a body of items and comments, and a closing brace. Reading cuts the file into the text before the
body, the items, and the text from the closing brace on.
-/
namespace IconCatalog.Source
open Text

inductive Fault where
  | missing (opening : Text)
  | repeated (name : Text) (line : Nat)
  | unreadable (name : Text) (line : Nat)
  | unclosed (name : Text)
  | unexpected (name : Text) (line : Nat)
  | unknownHelper (entry : Text)
  | noTable (name : Text)
  deriving DecidableEq, Repr

/-- An item reader takes up at least one character of what it reads. -/
structure ItemReader (α : Type) where
  read? : Text → Option (α × Text)
  shortens : ∀ {t a r}, read? t = some (a, r) → r.length < t.length

/-- Repeats a reader for as long as it succeeds. One that succeeds and takes nothing up would go on
for ever; the repetition then fails at the text where this happens. -/
def many (read? : Text → Option (β × Text)) (t : Text) : Except Text (List β × Text) :=
  match read? t with
  | none => .ok ([], t)
  | some (b, r) =>
    if _h : r.length < t.length then (many read? r).map fun (bs, rest) => (b :: bs, rest)
    else .error t
  termination_by t.length

def ItemReader.next? (item : ItemReader α) (t : Text) : Option (Option α × Text) :=
  let u := skipGap t
  match comment? u with
  | some (_, r) => some (none, r)
  | none => (item.read? u).map fun (a, r) => (some a, r)

/-- Reads items and comments with layout between them for as long as there are any. It gives the
items and what follows the layout behind the last of them. -/
def ItemReader.body (item : ItemReader α) (t : Text) : Except Text (List α × Text) :=
  (many item.next? t).map fun (found, rest) => (found.filterMap id, skipGap rest)

/-- What reading a body comes to, as it never gets stuck (`ItemReader.body_eq`). -/
def ItemReader.readAll (item : ItemReader α) (t : Text) : List α × Text :=
  let u := skipGap t
  match _hc : comment? u with
  | some (_, r) => readAll item r
  | none =>
    match _hi : item.read? u with
    | some (a, r) =>
      let (as, rest) := readAll item r
      (a :: as, rest)
    | none => ([], u)
  termination_by t.length
  decreasing_by
    · exact Nat.lt_of_lt_of_le (length_of_comment? _hc) (length_skipGap_le t)
    · exact Nat.lt_of_lt_of_le (item.shortens _hi) (length_skipGap_le t)

structure Declaration (α : Type) where
  name : Text
  opening : Text
  header : Pattern
  item : ItemReader α

structure Found (α : Type) where
  head : Text
  body : Text
  tail : Text
  items : List α

def Declaration.find (d : Declaration α) (source : Text) : Except Fault (Found α) :=
  match occurrences d.header source with
  | [] => .error (.missing d.opening)
  | _ :: second :: _ => .error (.repeated d.name (lineNumber source second.start))
  | [header] =>
    let inner := source.drop header.stop
    match d.item.body inner with
    | .error stuck => .error (.unreadable d.name (lineNumber source (source.length - stuck.length)))
    | .ok (_, []) => .error (.unclosed d.name)
    | .ok (items, c :: rest) =>
      if c = '\x7d' then
        .ok
          { head := source.take header.stop
            body := inner.take (inner.length - (c :: rest).length)
            tail := c :: rest
            items := items }
      else .error (.unexpected d.name (lineNumber source (source.length - (c :: rest).length)))

end IconCatalog.Source
