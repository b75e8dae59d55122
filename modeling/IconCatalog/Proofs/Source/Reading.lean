import IconCatalog.Proofs.Source.Body
/-!
How far a body is read, and what a source text is refused for. Every text is read up to the first
place where neither layout nor a comment nor an item stands, and what stands there decides about the
text: there is no other way for a body to be refused.
-/
namespace IconCatalog.Source
open Text
variable {α : Type} {item : ItemReader α} {IsItem : Text → α → Prop}

/-- A body is read off the start of a text, and it cannot be read any further. -/
structure ReadsThrough (item : ItemReader α) (IsItem : Text → α → Prop) (t : Text) (as : List α)
    (rest : Text) : Prop where
  body : item.body t = .ok (as, rest)
  taken : ∃ b, t = b ++ rest ∧ IsBody IsItem rest b as
  gap : ∀ c ∈ rest.head?, isGap c = false
  comment : comment? rest = none
  read : item.read? rest = none

theorem ReadsThrough.readAll {t rest : Text} {as : List α}
    (h : ReadsThrough item IsItem t as rest) : item.readAll t = (as, rest) :=
  Except.ok.inj ((item.body_eq t).symm.trans h.body)

/-- What a source text is refused for: it has no header or more than one, or a closing brace is
missing behind the body, where the text ends or goes on with something else. -/
inductive Declaration.Refuses (d : Declaration α) (IsItem : Text → α → Prop) (source : Text) :
    Fault → Prop where
  | missing (hnone : occurrences d.header source = []) :
      Refuses d IsItem source (.missing d.opening)
  | repeated {first second : Span} {more : List Span}
      (hmore : occurrences d.header source = first :: second :: more) :
      Refuses d IsItem source (.repeated d.name (lineNumber source second.start))
  | unclosed {header : Span} {as : List α} (hone : occurrences d.header source = [header])
      (hread : ReadsThrough d.item IsItem (source.drop header.stop) as []) :
      Refuses d IsItem source (.unclosed d.name)
  | unexpected {header : Span} {as : List α} {c : Char} {rest : Text}
      (hone : occurrences d.header source = [header])
      (hread : ReadsThrough d.item IsItem (source.drop header.stop) as (c :: rest))
      (hbrace : c ≠ '\x7d') : Refuses d IsItem source
        (.unexpected d.name (lineNumber source (source.length - (c :: rest).length)))

end IconCatalog.Source
