import IconCatalog.Proofs.Enumeration.Grammar
import IconCatalog.Proofs.Source.Reading
import IconCatalog.Proofs.Table.Grammar
/-!
What the files of a catalog are refused for. Reading the body of either kind of file never fails: it
goes on to the first thing that is neither an item nor a comment, and a file is refused for what it
finds there, or for an entry without a helper.
-/
namespace IconCatalog
open Text Source

namespace Table

end Table

namespace TableFile
open Table

/-- What a table file is refused for: its declaration, or the first entry that calls no helper. -/
inductive Refuses (source : Text) : Fault → Prop where
  | declaration {fault : Fault} (h : Table.declaration.Refuses IsEntry source fault) :
      Refuses source fault
  | unknownHelper {header : Span} {before after : List Entry} {e : Entry} {rest : Text}
      (hone : occurrences Table.header source = [header])
      (hread : ReadsThrough entries IsEntry (source.drop header.stop) (before ++ e :: after)
        ('\x7d' :: rest))
      (hbefore : ∀ a ∈ before, ∃ c : Category, c.IsCalledIn a.light)
      (hnone : ∀ c : Category, ¬c.IsCalledIn e.light) : Refuses source (.unknownHelper e.name)

end TableFile

end IconCatalog
