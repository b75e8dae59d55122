import IconCatalog.Proofs.Enumeration.File
import IconCatalog.Proofs.Table.File
import IconCatalog.Seed.Plant
/-!
The first texts of the edited files, cut at the bodies of their declarations. Around a body that
holds no heading, the files are read with the standard layout whatever stands in the body.
-/
namespace IconCatalog.Seed
open Text Source

/-- What can stand as the image base in a new table file: one line that does not name the table. -/
structure IsBase (base : Text) : Prop where
  no_return : '\r' ∉ base
  no_feed : '\n' ∉ base
  name : ¬Table.declaredName <:+: base

def tableLead (base : Text) : Text :=
  tablePreamble ++ ImageHelper.definitions base .lf ++ "\n".toList

def tableHead (base : Text) : Text := tableLead base ++ Table.standardHeader

def tableTail : Text := '\x7d' :: ";\n".toList

theorem tableSource_eq (base : Text) :
    tableSource base = tableHead base ++ Table.empty.renderBody .standard ++ tableTail := by
  have htail : tableTail = "\x7d;".toList ++ "\n".toList := by decide
  unfold tableSource tableHead tableLead Table.emptyDeclaration
  rw [htail]
  simp only [List.append_assoc]

def helperLines : Text :=
  (Category.all.flatMap fun c => ImageHelper.helperDefinition c ++ ['\n']).dropLast

theorem tableLead_eq (base : Text) : tableLead base =
    tablePreamble ++ "export const baseImgUrl = ".toList ++ doubleQuote ::
      (base ++ doubleQuote :: (";\n".toList ++ helperLines)) ++ ['\n', '\n'] := by
  have hopen : "export const ".toList ++ ImageHelper.baseName ++ " = \x22".toList =
      "export const baseImgUrl = ".toList ++ [doubleQuote] := by decide
  have hclose : "\x22;".toList ++ ['\n'] = doubleQuote :: ";\n".toList := by decide
  have hhelpers :
      (Category.all.flatMap fun c => ImageHelper.helperDefinition c ++ Newline.lf.text) =
      helperLines ++ ['\n'] := by decide +kernel
  have hfeed : "\n".toList = ['\n'] := by decide
  unfold tableLead ImageHelper.definitions ImageHelper.baseDefinition
  rw [hopen, hhelpers, hfeed, List.append_assoc _ "\x22;".toList, Newline.text, hclose]
  simp only [List.append_assoc, List.cons_append, List.nil_append]

theorem isInert_tableLead {base : Text} (h : IsBase base) :
    IsInert Table.header (tableLead base) := by
  have hquote : doubleQuote ∉ Table.declaredName := by decide
  have hfree : ¬Table.declaredName <:+: tablePreamble ++ "export const baseImgUrl = ".toList ++
      doubleQuote :: (base ++ doubleQuote :: (";\n".toList ++ helperLines)) := by
    have hbefore :
        ¬Table.declaredName <:+: tablePreamble ++ "export const baseImgUrl = ".toList := by
      rw [← mentions_iff]
      decide +kernel
    have hbehind : ¬Table.declaredName <:+: ";\n".toList ++ helperLines := by
      rw [← mentions_iff]
      decide +kernel
    rw [infix_append_cons_iff hquote, infix_append_cons_iff hquote]
    exact fun hmem => hmem.elim hbefore fun hmem => hmem.elim h.name hbehind
  have hlast : (tablePreamble ++ "export const baseImgUrl = ".toList ++ doubleQuote ::
      (base ++ doubleQuote :: (";\n".toList ++ helperLines))).getLast? = some ';' := by
    have hhelpers : (";\n".toList ++ helperLines).getLast? = some ';' := by decide +kernel
    simp only [List.getLast?_append, List.getLast?_cons, hhelpers]
    rfl
  have hlines := Table.isInert_of_no_name hfree hlast (by decide) (by decide)
  have hblank : IsInert Table.header ['\n', '\n'] :=
    Table.isInert_of_isQuiet (Table.isQuiet_of_not_mem (by decide)) rfl (by decide)
  rw [tableLead_eq]
  exact hlines.append hblank

theorem no_return_tableHead {base : Text} (h : '\r' ∉ base) : '\r' ∉ tableHead base := by
  have hbefore : '\r' ∉ tablePreamble ++ "export const baseImgUrl = ".toList := by decide +kernel
  have hbehind : '\r' ∉ ";\n".toList ++ helperLines := by decide +kernel
  have hheader : '\r' ∉ Table.standardHeader := by decide
  have hquote : '\r' ≠ doubleQuote := by decide
  rw [tableHead, tableLead_eq]
  simp only [List.mem_append, List.mem_cons, not_or] at hbefore hbehind ⊢
  exact ⟨⟨⟨hbefore, hquote, h, hquote, hbehind⟩, by decide, by decide, by simp⟩, hheader⟩

theorem occurrences_tableHead {base : Text} (h : IsInert Table.header (tableLead base)) {t : Text}
    (ht : IsInert Table.header t) : occurrences Table.header (tableHead base ++ t) =
      [⟨(tableLead base).length, (tableHead base).length⟩] := by
  have hstate : (tableLead base).foldl LineState.step .start = .start := by
    rw [tableLead_eq, show ['\n', '\n'] = ['\n'] ++ ['\n'] from rfl, ← List.append_assoc,
      foldl_step_newline]
  have hone := occurrences_of_isInert Table.header_endsAtBrace h
    (w := Table.standardHeader) (by rw [hstate]; rfl) (by decide) (by decide +kernel) ht
  rw [tableHead, List.length_append]
  exact hone

theorem isInert_tableTail : IsInert Table.header tableTail :=
  Table.isInert_of_isQuiet (Table.isQuiet_of_not_mem (by decide)) rfl (by decide)

/-- A text that is read as the front of a table file, whatever icons the table holds. -/
def IsTableHead (head : Text) : Prop :=
  ∀ t : Table, t.HoldsIcons → TableFile.read (head ++ t.renderBody .standard ++ tableTail) =
    .ok ⟨head, t, tableTail, .standard⟩

theorem isTableHead_of_isInert {base : Text} (h : IsInert Table.header (tableLead base))
    (hreturn : '\r' ∉ base) : IsTableHead (tableHead base) := by
  intro t ht
  have hfree : '\r' ∉ tableHead base ++ tableTail := by
    rw [List.mem_append, not_or]
    exact ⟨no_return_tableHead hreturn, by decide⟩
  have hread := FileKind.isRead_tame (K := Table.kind) Layout.isUsable_standard rfl
    (ht.isTame Layout.isUsable_standard) rfl isInert_tableTail
    (fun t ht => occurrences_tableHead h ht) rfl hfree
  let f : TableFile := ⟨tableHead base, t, tableTail, .standard⟩
  exact TableFile.read_render (f := f) ht.isPrintable hread

theorem read_table {base : Text} (h : IsBase base) {t : Table} (ht : t.HoldsIcons) :
    TableFile.read (tableHead base ++ t.renderBody .standard ++ tableTail) =
      .ok ⟨tableHead base, t, tableTail, .standard⟩ :=
  isTableHead_of_isInert (isInert_tableLead h) h.no_return t ht

def enumHead (c : Category) : Text := "export enum ".toList ++ c.enumName ++ " \x7b".toList

def enumTail : Text := '\x7d' :: "\n".toList

theorem enumSource_eq (c : Category) :
    enumSource c = enumHead c ++ Enumeration.renderBody c [] .standard ++ enumTail := by
  have htail : enumTail = "\x7d".toList ++ "\n".toList := by decide
  unfold enumSource enumHead Enumeration.emptyDeclaration
  rw [htail]
  simp only [List.append_assoc]

theorem read_enum (c : Category) {ms : Members} (hms : ∀ m ∈ ms, IsName m) :
    EnumFile.read c (enumHead c ++ Enumeration.renderBody c ms .standard ++ enumTail) =
      .ok ⟨c, enumHead c, ms, enumTail, .standard⟩ := by
  have htail : IsInert (Enumeration.header c) enumTail := by
    have hmark : IsInert (Enumeration.header c) ([] ++ ['\x7d'] ++ "\n".toList) :=
      Enumeration.isInert_of_mark (by decide) (by decide) (by decide) (by simp [IsGap, isGap])
    exact hmark
  have hheader (t : Text) (ht : IsInert (Enumeration.header c) t) :
      occurrences (Enumeration.header c) (enumHead c ++ t) = [⟨0, (enumHead c).length⟩] := by
    have hone := occurrences_of_isInert (Enumeration.header_endsAtBrace c) isInert_nil
      (w := enumHead c) rfl (by cases c <;> decide) (by cases c <;> decide +kernel) ht
    rw [List.nil_append, List.length_nil, Nat.zero_add] at hone
    exact hone
  have hread := FileKind.isRead_tame (K := Enumeration.kind c) Layout.isUsable_standard rfl
    (fun m hm => Enumeration.isTame_of_isName Layout.isUsable_standard (hms m hm)) rfl htail hheader
    rfl (by cases c <;> decide)
  let f : EnumFile := ⟨c, enumHead c, ms, enumTail, .standard⟩
  exact EnumFile.read_render (f := f) hread

end IconCatalog.Seed
