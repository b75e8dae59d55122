import IconCatalog.Proofs.Source.File
import IconCatalog.Proofs.Table.Icon
/-!
Table files that were read. Their groups hold what the printer can give back, up to the quotes of
the names. A printed file with one icon more is read back in the same layout.
-/
namespace IconCatalog
open Text Source

namespace Table
variable {after b : Text} {es : List Entry} {t : Table}

theorem IsField.isSettled {label s e : Text} (h : IsField label s e) : Source.IsSettled e := by
  cases h with
  | mk _ _ hx => exact isSettled_of_isExpression hx

theorem IsEntry.isSettled {s : Text} {e : Entry} (h : IsEntry s e) : e.IsSettled := by
  cases h with
  | mk hkey hs =>
    cases hs with
    | mk _ _ hlight hdark => exact ⟨hkey.no_feed, hlight.isSettled, hdark.isSettled⟩

def kind : FileKind (Category × Entry) Entry where
  declaration := declaration
  IsItem := IsEntry
  IsHeading := IsHeading
  reads := entries_reads
  endsAtBrace := header_endsAtBrace
  isEntry := TableFile.isEntryLine
  series := series
  style := series_style
  isTidy := isTidy_series
  inert_between := isInert_between
  no_return_between := no_return_between
  value := (·.2)
  IsPrintable x := x.2.IsPrintable
  reads_series hlayout hx := reads_entry hlayout hx
  IsLined x := '\n' ∉ x.2.name
  lined h := h.line
  detect _ := TableFile.detect_print

theorem isTame_ofIcon {layout : Layout} (hlayout : Layout.IsUsable layout.indent) {name : Text}
    (hname : IsName name) (c : Category) (artwork : Artwork) :
    kind.IsTame layout (c, .ofIcon c name artwork) where
  printable := Entry.isPrintable_ofIcon hname c artwork
  inert := isInert_ofIcon hlayout hname c artwork
  barrier prev next _ rest hu := header_insertion hlayout hname c artwork prev next hu rest
  no_return hlf := no_return_ofIcon hlayout hlf hname c artwork

theorem HoldsIcons.isTame {t : Table} (h : t.HoldsIcons) {layout : Layout}
    (hlayout : Layout.IsUsable layout.indent) : ∀ x ∈ t.listing, kind.IsTame layout x := by
  rintro ⟨c, e⟩ hx
  obtain ⟨name, artwork, hname, rfl⟩ := h c e (mem_listing.1 hx)
  exact isTame_ofIcon hlayout hname c artwork

end Table

deriving instance DecidableEq for TableFile

namespace TableFile
open Table
variable {s : Text} {f : TableFile}

theorem render_eq (f : TableFile) :
    f.render = f.head ++ ((series f.layout).print f.table.listing ++ f.tail) := by
  rw [← renderBody_eq, ← List.append_assoc]
  rfl

theorem read_eq_ok_iff : read s = .ok f ↔
    ∃ es, kind.IsRead s f.head f.tail f.layout es ∧ ofEntries es = .ok f.table := by
  simp only [read, bind_eq_ok_iff, FileKind.isRead_iff]
  constructor
  · rintro ⟨found, hfind, t, hes, h⟩
    obtain rfl := Except.ok.inj h
    exact ⟨found.items, ⟨found.body, hfind, rfl⟩, hes⟩
  · rintro ⟨es, ⟨b, hfind, hlayout⟩, hes⟩
    refine ⟨⟨f.head, b, f.tail, es⟩, hfind, f.table, hes, ?_⟩
    exact congrArg (fun layout => Except.ok { f with layout := layout }) hlayout.symm

theorem isUsable_of_read (h : read s = .ok f) : Layout.IsUsable f.layout.indent := by
  obtain ⟨es, hread, -⟩ := read_eq_ok_iff.1 h
  exact hread.isUsable

theorem isSettled_of_read (h : read s = .ok f) (c : Category) :
    ∀ e ∈ f.table.group c, e.IsSettled ∧ c.IsCalledIn e.light := by
  obtain ⟨es, hread, hes⟩ := read_eq_ok_iff.1 h
  intro e he
  rw [(ofEntries_eq_ok_iff.1 hes).2, group_grouped, List.mem_filter] at he
  obtain ⟨u, -, hu⟩ := hread.exists_item e he.1
  exact ⟨IsEntry.isSettled hu, Category.calls_iff.1 he.2⟩

theorem read_render {t : Table} (ht : t.IsPrintable) {newline : Newline}
    (h : kind.IsRead (f.head ++ ((series f.layout).print t.listing ++ f.tail)) f.head f.tail
      ⟨f.layout.indent, newline⟩ (t.listing.map (·.2))) :
    read { f with table := t }.render =
      .ok { f with table := t, layout := ⟨f.layout.indent, newline⟩ } := by
  rw [render_eq]
  exact read_eq_ok_iff.2 ⟨_, h, ofEntries_listing fun c e he => (ht c e he).2⟩

/-- A file that is its own printed form. -/
structure IsPrinted (f : TableFile) (s : Text) : Prop where
  read : TableFile.read s = .ok f
  render : f.render = s

theorem isPrinted_render {header : Span} {rest : Text} (htail : f.tail = '\x7d' :: rest)
    (hheader : occurrences Table.header f.render = [header]) (hstop : header.stop = f.head.length)
    (hlayout : Layout.IsUsable f.layout.indent) (ht : f.table.IsPrintable)
    (hnewline : .detect f.render = f.layout.newline) : f.IsPrinted f.render := by
  rw [render_eq] at hheader hnewline
  have hread := FileKind.isRead_print (K := kind) hlayout ht.of_mem_listing htail hheader hstop
    hnewline
  exact ⟨read_render ht hread, rfl⟩

theorem IsPrinted.insert (h : f.IsPrinted s) {t : Table} (ht : t.IsPrintable) {name : Text}
    (hname : IsName name) {c : Category} {artwork : Artwork} {as bs : List (Category × Entry)}
    (hbefore : f.table.listing = as ++ bs)
    (hbehind : t.listing = as ++ (c, .ofIcon c name artwork) :: bs) :
    IsPrinted { f with table := t } { f with table := t }.render := by
  obtain ⟨es, hread, -⟩ := read_eq_ok_iff.1 h.read
  have hsource : s = f.head ++ ((series f.layout).print (as ++ bs) ++ f.tail) := by
    rw [← hbefore, ← render_eq]
    exact h.render.symm
  have hinserted := hread.insert hsource (hbehind ▸ ht.of_mem_listing)
    (isTame_ofIcon hread.isUsable hname c artwork)
  rw [← hbehind] at hinserted
  exact ⟨read_render ht hinserted, rfl⟩

end TableFile
end IconCatalog
