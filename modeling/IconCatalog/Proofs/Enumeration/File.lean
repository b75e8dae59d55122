import IconCatalog.Proofs.Enumeration.Printed
import IconCatalog.Proofs.Source.File
/-!
Enumeration files that were read, in the same way as table files.
-/
namespace IconCatalog
open Text Source

namespace Enumeration
variable {category : Category}

theorem IsMember.no_feed {s name : Text} (h : IsMember s name) : '\n' ∉ name := by
  cases h with
  | mk hkey => exact hkey.no_feed

def kind (category : Category) : FileKind Text Text where
  declaration := declaration category
  IsItem := IsMember
  IsHeading := IsHeading category
  reads := members_reads
  endsAtBrace := header_endsAtBrace category
  isEntry := EnumFile.isMemberLine
  series := series category
  style _ := series_style
  isTidy := isTidy_series category
  inert_between := isInert_between
  no_return_between := no_return_between
  value := id
  IsPrintable := IsPrintable
  reads_series _ h := reads_member h
  IsLined name := '\n' ∉ name
  lined h := h.line
  detect _ := EnumFile.detect_print

theorem isTame_of_isName {layout : Layout} (hlayout : Layout.IsUsable layout.indent) {name : Text}
    (hname : IsName name) : (kind category).IsTame layout name where
  printable := isPrintable_of_isName hname
  inert := isInert_member hlayout hname
  barrier prev next _ rest hu := header_insertion hlayout hname prev next hu rest
  no_return _ := not_mem_memberText hname (by decide) (by decide)

end Enumeration

deriving instance DecidableEq for EnumFile

namespace EnumFile
open Enumeration
variable {category : Category} {s : Text} {f : EnumFile}

theorem render_eq (f : EnumFile) :
    f.render = f.head ++ ((series f.category f.layout).print f.members ++ f.tail) := by
  rw [← renderBody_eq, ← List.append_assoc]
  rfl

theorem read_eq_ok_iff : read category s = .ok f ↔
    f.category = category ∧ (kind category).IsRead s f.head f.tail f.layout f.members := by
  simp only [read, bind_eq_ok_iff, FileKind.isRead_iff]
  constructor
  · rintro ⟨found, hfind, h⟩
    obtain rfl := Except.ok.inj h
    exact ⟨rfl, found.body, hfind, rfl⟩
  · rintro ⟨rfl, b, hfind, hlayout⟩
    refine ⟨⟨f.head, b, f.tail, f.members⟩, hfind, ?_⟩
    exact congrArg (fun layout => Except.ok { f with layout := layout }) hlayout.symm

theorem isUsable_of_read (h : read category s = .ok f) : Layout.IsUsable f.layout.indent :=
  (read_eq_ok_iff.1 h).2.isUsable

theorem no_feed_of_read (h : read category s = .ok f) : ∀ m ∈ f.members, '\n' ∉ m := by
  intro m hm
  obtain ⟨t, -, ht⟩ := (read_eq_ok_iff.1 h).2.exists_item m hm
  exact IsMember.no_feed ht

theorem read_render {ms : Members} {newline : Newline}
    (h : (kind f.category).IsRead (f.head ++ ((series f.category f.layout).print ms ++ f.tail))
      f.head f.tail ⟨f.layout.indent, newline⟩ (ms.map id)) :
    read f.category { f with members := ms }.render =
      .ok { f with members := ms, layout := ⟨f.layout.indent, newline⟩ } := by
  rw [List.map_id] at h
  rw [render_eq]
  exact read_eq_ok_iff.2 ⟨rfl, h⟩

/-- A file that is its own printed form. -/
structure IsPrinted (f : EnumFile) (category : Category) (s : Text) : Prop where
  read : EnumFile.read category s = .ok f
  render : f.render = s

theorem isPrinted_render {header : Span} {rest : Text} (htail : f.tail = '\x7d' :: rest)
    (hheader : occurrences (Enumeration.header f.category) f.render = [header])
    (hstop : header.stop = f.head.length) (hlayout : Layout.IsUsable f.layout.indent)
    (hms : ∀ m ∈ f.members, Enumeration.IsPrintable m)
    (hnewline : .detect f.render = f.layout.newline) : f.IsPrinted f.category f.render := by
  rw [render_eq] at hheader hnewline
  have hread := FileKind.isRead_print (K := kind f.category) hlayout hms htail hheader hstop
    hnewline
  exact ⟨read_render hread, rfl⟩

theorem IsPrinted.insert (h : f.IsPrinted category s) {as bs : List Text}
    (hms : ∀ m ∈ as ++ bs, Enumeration.IsPrintable m) {name : Text} (hname : IsName name)
    (hbefore : f.members = as ++ bs) :
    IsPrinted { f with members := as ++ name :: bs } category
      { f with members := as ++ name :: bs }.render := by
  obtain ⟨rfl, hread⟩ := read_eq_ok_iff.1 h.read
  have hsource : s = f.head ++ ((series f.category f.layout).print (as ++ bs) ++ f.tail) := by
    rw [← hbefore, ← render_eq]
    exact h.render.symm
  have hall : ∀ m ∈ as ++ name :: bs, Enumeration.IsPrintable m := by
    simp only [List.forall_mem_append, List.forall_mem_cons] at hms ⊢
    exact ⟨hms.1, isPrintable_of_isName hname, hms.2⟩
  have hinserted := hread.insert hsource hall (isTame_of_isName hread.isUsable hname)
  exact ⟨read_render hinserted, rfl⟩

end EnumFile
end IconCatalog
