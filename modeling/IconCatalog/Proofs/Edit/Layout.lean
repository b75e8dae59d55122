import IconCatalog.Proofs.Edit.Step
import IconCatalog.Proofs.Table.File
/-!
The layout of a file under edits. Expressions of entries are kept as text and may run over several
lines, but they were read from the file and bring no line ends with them that were not there. So a
file that is printed anew shows the indent and the line ends that it was read with, whatever was put
in and taken out.
-/
namespace IconCatalog
open Text Source

namespace Entry

/-- In an entry that was read from a text without `\r\n`, each expression ends its lines by
feeds. -/
structure HasFeedTexts (e : Entry) : Prop where
  line : '\n' ∉ e.name
  light : IsFeedText e.light
  dark : IsFeedText e.dark

theorem hasFeedTexts_ofIcon {name : Text} (hname : IsName name) (c : Category)
    (artwork : Artwork) : (ofIcon c name artwork).HasFeedTexts := by
  obtain ⟨-, hlight, hdark⟩ := no_return_ofIcon hname c artwork
  exact ⟨(isPrintable_ofIcon hname c artwork).line, isFeedText_of_not_mem hlight,
    isFeedText_of_not_mem hdark⟩

end Entry

namespace Table
variable {layout : Layout}

theorem isFeedText_of_isField {label s e source : Text} (h : IsField label s e)
    (hin : s <:+: source) (hpair : ¬['\r', '\n'] <:+: source) : IsFeedText e := by
  cases h with
  | @mk v w x hv hw hx =>
    refine ⟨fun hmem => hpair ?_, fun hlast => ?_⟩
    · obtain ⟨z, -, hz⟩ := exists_trimEnd (skipGap x)
      have htrim : trimEnd (skipGap x) <:+: skipGap x := ⟨[], z, by rw [List.nil_append, ← hz]⟩
      have hskip : skipGap x <:+: x := (List.dropWhile_suffix isGap).isInfix
      have hfield : x <:+: v ++ label ++ w ++ ':' :: x :=
        (List.suffix_cons ':' x).isInfix.trans (List.suffix_append _ _).isInfix
      exact hmem.trans (htrim.trans (hskip.trans (hfield.trans hin)))
    · exact absurd (getLast_trimEnd (skipGap x) _ hlast) (by decide)

theorem hasFeedTexts_of_isEntry {s source : Text} {e : Entry} (h : IsEntry s e)
    (hin : s <:+: source) (hpair : ¬['\r', '\n'] <:+: source) : e.HasFeedTexts := by
  cases h with
  | @mk key name s light dark hkey hs =>
    cases hs with
    | @mk u v lightField light darkField dark ahead w behind hu hv hlight hdark hahead hw hbehind =>
      refine ⟨hkey.no_feed, isFeedText_of_isField hlight (.trans ?_ hin) hpair,
        isFeedText_of_isField hdark (.trans ?_ hin) hpair⟩
      · exact ⟨key ++ u ++ ':' :: (v ++ ['\x7b']),
          ',' :: (darkField ++ ahead ++ w ++ '\x7d' :: behind), by simp⟩
      · exact ⟨key ++ u ++ ':' :: (v ++ '\x7b' :: (lightField ++ [','])),
          ahead ++ w ++ '\x7d' :: behind, by simp⟩

theorem isFeedText_entryText (hlayout : Layout.IsUsable layout.indent)
    (hlf : layout.newline = .lf) {e : Entry} (he : e.HasFeedTexts) :
    IsFeedText (entryText layout e) := by
  have hindent : '\r' ∉ layout.indent := hlayout.not_mem (by decide) (by decide)
  have hnl : '\r' ∉ layout.newline.text := by rw [hlf]; decide
  have hlabels : '\r' ∉ lightLabel ∧ '\r' ∉ darkLabel := by decide
  have hkey : IsFeedText (doubleQuote :: e.name ++ [doubleQuote]) :=
    isFeedText_of_line (by simp [doubleQuote, he.line]) (by decide) (by decide)
  have hopen : IsFeedText ([':', ' ', '\x7b'] ++ (layout.newline.text ++ layout.indent ++
      layout.indent) ++ lightLabel ++ [':', ' ']) :=
    isFeedText_of_not_mem (by simp [hnl, hindent, hlabels])
  have hmiddle : IsFeedText ([','] ++ (layout.newline.text ++ layout.indent ++ layout.indent) ++
      darkLabel ++ [':', ' ']) :=
    isFeedText_of_not_mem (by simp [hnl, hindent, hlabels])
  have hclose : IsFeedText (layout.newline.text ++ layout.indent ++ ['\x7d']) :=
    isFeedText_of_not_mem (by simp [hnl, hindent])
  have hall := hkey.append (hopen.append (he.light.append (hmiddle.append (he.dark.append hclose))))
  rw [entryText_eq]
  simpa using hall

def Step.IsValid : Step → Prop
  | insert _ e => Edit.isValidName e.name = true ∧ ∃ c artwork, e = .ofIcon c e.name artwork
  | erase _ name => Edit.isValidName name = true

theorem forall_foldl_change {p : Entry → Prop} {t : Table} (ht : ∀ c, ∀ e ∈ t.group c, p e)
    (hnew : ∀ c name artwork, IsName name → p (.ofIcon c name artwork)) {steps : List Step}
    (hsteps : ∀ x ∈ steps, x.IsValid) :
    ∀ c, ∀ e ∈ (steps.foldl change t).group c, p e := by
  intro c e he
  cases mem_foldl_change he with
  | inl hold => exact ht c e hold
  | inr hstep =>
    obtain ⟨hname, d, artwork, heq⟩ := hsteps _ hstep
    rw [heq]
    exact hnew d e.name artwork (Edit.isValidName_iff.1 hname)

end Table

namespace TableFile
open Table
variable {s : Text} {f : TableFile}

theorem detect_render (h : read s = .ok f) {t : Table}
    (hline : ∀ c, ∀ e ∈ t.group c, '\n' ∉ e.name)
    (hfeed : f.layout.newline = .lf → ∀ c, ∀ e ∈ t.group c, e.HasFeedTexts) :
    Layout.detect { f with table := t }.render (t.renderBody f.layout) isEntryLine = f.layout := by
  obtain ⟨es, hread, -⟩ := read_eq_ok_iff.1 h
  rw [render_eq, renderBody_eq]
  refine hread.detect_print (fun x hx => hline x.1 x.2 (mem_listing.1 hx)) fun hlf x hx => ?_
  exact isFeedText_entryText hread.isUsable hlf (hfeed hlf x.1 x.2 (mem_listing.1 hx))

theorem hasFeedTexts_of_read (h : read s = .ok f) (hlf : f.layout.newline = .lf) (c : Category) :
    ∀ e ∈ f.table.group c, e.HasFeedTexts := by
  obtain ⟨es, hread, hes⟩ := read_eq_ok_iff.1 h
  have hpair : ¬['\r', '\n'] <:+: s := Newline.detect_eq_lf_iff.1 (hread.newline ▸ hlf)
  intro e he
  rw [(ofEntries_eq_ok_iff.1 hes).2, group_grouped, List.mem_filter] at he
  obtain ⟨u, hin, hu⟩ := hread.exists_item e he.1
  exact hasFeedTexts_of_isEntry hu hin hpair

end TableFile

namespace EnumFile
open Enumeration
variable {category : Category} {s : Text} {f : EnumFile}

theorem isFeedText_memberText {name : Text} (hname : '\n' ∉ name) :
    IsFeedText (memberText name) := by
  have hfree : '\n' ∉ (if isIdentifier name then name
      else doubleQuote :: (name ++ [doubleQuote])) ++ ' ' :: '=' :: ' ' :: doubleQuote :: name := by
    split <;> simp [hname, doubleQuote]
  have hline := isFeedText_of_line (c := doubleQuote) hfree (by decide) (by decide)
  simpa [memberText] using hline

theorem detect_render (h : read category s = .ok f) {ms : Members} (hms : ∀ m ∈ ms, '\n' ∉ m) :
    Layout.detect { f with members := ms }.render (renderBody f.category ms f.layout)
      isMemberLine = f.layout := by
  obtain ⟨rfl, hread⟩ := read_eq_ok_iff.1 h
  rw [render_eq, renderBody_eq]
  exact hread.detect_print hms fun _ m hm => isFeedText_memberText (hms m hm)

end EnumFile

/-- Whatever valid steps a file that was read goes through, its printed form shows the indent and
the line ends that the file was read with. -/
theorem detect_edited :
    (∀ (s : Text) (f : TableFile) (steps : List Table.Step), TableFile.read s = .ok f →
      (∀ x ∈ steps, x.IsValid) →
      let t := steps.foldl Table.change f.table
      Layout.detect { f with table := t }.render (t.renderBody f.layout) TableFile.isEntryLine =
        f.layout) ∧
    ∀ (category : Category) (s : Text) (f : EnumFile) (steps : List (Action × Text)),
      EnumFile.read category s = .ok f → (∀ x ∈ steps, Edit.isValidName x.2 = true) →
      let ms := steps.foldl Members.change f.members
      Layout.detect { f with members := ms }.render
        (Enumeration.renderBody f.category ms f.layout) EnumFile.isMemberLine = f.layout := by
  constructor
  · intro s f steps h hsteps t
    have hline : ∀ c, ∀ e ∈ t.group c, '\n' ∉ e.name :=
      Table.forall_foldl_change (fun c e he => (TableFile.isSettled_of_read h c e he).1.line)
        (fun c name artwork hname => (Entry.isPrintable_ofIcon hname c artwork).line) hsteps
    exact TableFile.detect_render h hline fun hlf =>
      Table.forall_foldl_change (TableFile.hasFeedTexts_of_read h hlf)
        (fun c name artwork hname => Entry.hasFeedTexts_ofIcon hname c artwork) hsteps
  · intro category s f steps h hsteps ms
    refine EnumFile.detect_render h fun m hm => ?_
    cases Members.mem_foldl_change hm with
    | inl hold => exact EnumFile.no_feed_of_read h m hold
    | inr hnew =>
      obtain ⟨x, hx, rfl⟩ := List.mem_map.1 hnew
      exact (Edit.isValidName_iff.1 (hsteps x hx)).not_mem (by decide)

/-- A table with tabs and `\r\n` that loses its only entry, whose expression runs over two lines,
and an enumeration that gets its first member. -/
theorem detect_edited_tabs :
    let s := ("export const iconMap = \x7b\r\n\t// Tokens\r\n\t'a': \x7b lightMode: " ++
      "baseImgUrlToken(\r\n\t\t1), darkMode: 2 \x7d,\r\n\x7d;\r\n").toList
    let u := "export enum TokenSymbol \x7b\n    // None\n\x7d\n".toList
    let steps : List Table.Step :=
      [.insert .wallet (.ofIcon .wallet "b".toList .builtin), .erase .token "a".toList,
        .erase .wallet "b".toList]
    let names : List (Action × Text) := [(.add, "BTC".toList)]
    ∃ f g, TableFile.read s = .ok f ∧ EnumFile.read .token u = .ok g ∧
      (∀ x ∈ steps, x.IsValid) ∧ (∀ x ∈ names, Edit.isValidName x.2 = true) ∧
      f.layout = ⟨['\t'], .crlf⟩ ∧ g.layout = ⟨"    ".toList, .lf⟩ ∧
      (let t := steps.foldl Table.change f.table;
        t = .empty ∧ Layout.detect { f with table := t }.render (t.renderBody f.layout)
          TableFile.isEntryLine = f.layout) ∧
      (let ms := names.foldl Members.change g.members;
        ms = ["BTC".toList] ∧ Layout.detect { g with members := ms }.render
          (Enumeration.renderBody g.category ms g.layout) EnumFile.isMemberLine = g.layout) := by
  intro s u steps names
  let a : Entry := ⟨"a".toList, "baseImgUrlToken(\r\n\t\t1)".toList, "2".toList⟩
  let f : TableFile := ⟨s.take 24, ⟨[a], [], []⟩, "\x7d;\r\n".toList, ⟨['\t'], .crlf⟩⟩
  let g : EnumFile := ⟨.token, u.take 25, [], "\x7d\n".toList, ⟨"    ".toList, .lf⟩⟩
  have hf : TableFile.read s = .ok f := eq_ok_of_toOption (by decide +kernel)
  have hg : EnumFile.read .token u = .ok g := eq_ok_of_toOption (by decide +kernel)
  have hsteps : ∀ x ∈ steps, x.IsValid := by
    intro x hx
    simp only [steps, List.mem_cons, List.not_mem_nil, or_false] at hx
    rcases hx with rfl | rfl | rfl
    · exact ⟨by decide, .wallet, .builtin, by decide⟩
    · exact (by decide : Edit.isValidName "a".toList = true)
    · exact (by decide : Edit.isValidName "b".toList = true)
  have hnames : ∀ x ∈ names, Edit.isValidName x.2 = true := by decide
  obtain ⟨htable, hmembers⟩ := detect_edited
  exact ⟨f, g, hf, hg, hsteps, hnames, rfl, rfl, ⟨by decide, htable s f steps hf hsteps⟩, by decide,
    hmembers .token u g names hg hnames⟩

end IconCatalog
