import IconCatalog.Proofs.Enumeration.Grammar
import IconCatalog.Proofs.Enumeration.Header
import IconCatalog.Proofs.Source.Series
/-!
Printed enumerations. Members are printed as a series and read back member by member; a further
member brings no heading with it.
-/
namespace IconCatalog
open Text Source

theorem Category.exists_example (c : Category) :
    ∃ note, "// Example: ".toList ++ c.sample ++ " = \x22".toList ++ c.sample ++ "\x22".toList =
      commentMark ++ note ++ [doubleQuote] ∧ (∀ x ∈ note, isLineEnd x = false) ∧
      '\x7b' ∉ commentMark ++ note := by
  let note := " Example: ".toList ++ c.sample ++ " = \x22".toList ++ c.sample
  have hline : ∀ x ∈ note, isLineEnd x = false := forall_of_all (by cases c <;> decide)
  exact ⟨note, by cases c <;> rfl, hline, by cases c <;> decide⟩

namespace Enumeration

def memberText (name : Text) : Text :=
  (if isIdentifier name then name else doubleQuote :: (name ++ [doubleQuote])) ++
    ' ' :: '=' :: ' ' :: doubleQuote :: (name ++ [doubleQuote])

theorem renderMember_eq (layout : Layout) (name : Text) :
    renderMember layout name = layout.indent ++ memberText name := by
  have hquote : "\x22".toList = [doubleQuote] := by decide
  have hequals : " = \x22".toList = [' ', '=', ' ', doubleQuote] := by decide
  unfold renderMember memberText
  rw [hquote, hequals]
  simp only [List.append_assoc, List.cons_append, List.nil_append]

/-- The comment that stands in for members is the only line between the braces that is no member. -/
def notes (category : Category) (indent : Text) : Option Text → Option Text → List Text
  | none, none => [indent ++ ("// Example: ".toList ++ category.sample ++ " = \x22".toList ++
      category.sample ++ "\x22".toList)]
  | _, _ => []

def series (category : Category) (layout : Layout) : Series Text where
  style := layout
  item := memberText
  notes := notes category layout.indent

variable {category : Category} {layout : Layout}

@[simp] theorem series_style : (series category layout).style = layout := rfl

@[simp] theorem series_item (name : Text) : (series category layout).item name = memberText name :=
  rfl

@[simp] theorem series_notes (prev next : Option Text) :
    (series category layout).notes prev next = notes category layout.indent prev next := rfl

theorem layout_some (category : Category) (layout : Layout) (prev next : Option Text)
    (h : prev ≠ none ∨ next ≠ none) :
    (series category layout).layout prev next = layout.newline.text := by
  have hnotes : notes category layout.indent prev next = [] := by
    cases prev with
    | some a => rfl
    | none =>
      cases next with
      | some b => rfl
      | none => exact absurd rfl (h.elim id id)
  simp [Series.layout, hnotes]

theorem lastItems_eq (category : Category) (layout : Layout) (name : Text) (ms : List Text) :
    (series category layout).lastItems (name :: ms) = renderMembers layout (name :: ms) := by
  induction ms generalizing name with
  | nil =>
    have hnl := layout_some category layout (some name) none (by simp)
    simp [Series.lastItems, Series.printFrom, Series.between, renderMembers, renderMember_eq, hnl]
  | cons m ms ih =>
    have hnl := layout_some category layout (some name) (some m) (by simp)
    have hrest := ih m
    rw [renderMembers, ← hrest, Series.lastItems, Series.printFrom_eq]
    simp [Series.between, renderMember_eq, hnl]

theorem renderBody_eq (ms : List Text) :
    renderBody category ms layout = (series category layout).print ms := by
  cases ms with
  | nil =>
    simp only [renderBody, if_true, renderExample, Series.print, Series.printFrom, Series.between,
      Series.layout, series_notes, notes, List.flatMap_cons, List.flatMap_nil, series_style,
      List.append_assoc, List.nil_append, List.append_nil]
  | cons m ms =>
    have hnl := layout_some category layout none (some m) (by simp)
    rw [renderBody, if_neg (List.cons_ne_nil m ms), ← lastItems_eq category,
      Series.print, Series.printFrom_eq]
    simp [Series.between, hnl]

theorem isTidy_series (category : Category) (h : Layout.IsUsable layout.indent) :
    (series category layout).IsTidy where
  usable := h
  notes := fun prev next l hl => by
    cases prev with
    | some a => exact absurd hl (by simp [notes])
    | none =>
      cases next with
      | some b => exact absurd hl (by simp [notes])
      | none =>
        obtain ⟨note, hnote, hends, -⟩ := category.exists_example
        refine .inr ⟨note ++ [doubleQuote], ?_, fun c hc => ?_⟩
        · rw [List.mem_singleton.1 hl, hnote]
          simp
        · cases List.mem_append.1 hc with
          | inl hc => exact hends c hc
          | inr hc =>
            rw [List.mem_singleton.1 hc]
            decide

/-- A name that is read back from its printed member. -/
structure IsPrintable (name : Text) : Prop where
  line : '\n' ∉ name
  quote : doubleQuote ∉ name

theorem isName_of_isIdentifier {name : Text} (h : isIdentifier name = true) : IsName name := by
  cases name with
  | nil => exact absurd h (by simp [isIdentifier])
  | cons c n =>
    simp only [isIdentifier, Bool.and_eq_true, List.all_eq_true] at h
    exact ⟨List.cons_ne_nil c n, List.forall_mem_cons.2 ⟨h.1.2, h.2⟩⟩

theorem isValued_memberText {name : Text} (h : IsPrintable name) {comma : Text}
    (hcomma : IsComma comma) : IsValued (memberText name ++ comma) (name, name) := by
  have hinside : ∀ c ∈ name, c ≠ doubleQuote ∧ c ≠ '\n' := fun c hc =>
    ⟨fun hd => h.quote (hd ▸ hc), fun hn => h.line (hn ▸ hc)⟩
  have hkey : IsKey (if isIdentifier name then name else doubleQuote :: (name ++ [doubleQuote]))
      name := by
    split
    · next hid => exact .bare (isName_of_isIdentifier hid).1 (isName_of_isIdentifier hid).2
    · exact .quoted (.inl rfl) hinside
  have hvalue : quoted? (doubleQuote :: (name ++ [doubleQuote])) = some (name, []) :=
    quoted?_eq_some_iff.2 ⟨doubleQuote, .inl rfl, rfl,
      fun c hc => by simpa [isInside] using hinside c hc⟩
  have hmember := IsValued.mk hkey isGap_space isGap_space hvalue hcomma
  unfold memberText
  simp only [List.append_assoc, List.cons_append, List.nil_append] at hmember ⊢
  exact hmember

theorem reads_valued {name : Text} (h : IsPrintable name) :
    (series category layout).Reads IsValued (fun name => (name, name)) name where
  plain := by simpa using isValued_memberText h .left_out
  comma := isValued_memberText h (.written isGap_nil)

theorem reads_member {name : Text} (h : IsPrintable name) :
    (series category layout).Reads IsMember id name := by
  have hvalued : (series category layout).Reads IsValued (fun name => (name, name)) name :=
    reads_valued h
  exact ⟨isMember_iff.2 ⟨name, hvalued.plain⟩, isMember_iff.2 ⟨name, hvalued.comma⟩⟩

end Enumeration

namespace EnumFile
open Enumeration
variable {category : Category}

theorem passesNotes_isMemberLine : Series.PassesNotes isMemberLine := by
  refine ⟨rfl, fun note => ?_⟩
  simp [isMemberLine, isNameChar, doubleQuote]

theorem exists_memberText (name : Text) :
    ∃ c l, memberText name = c :: l ∧ isMemberLine (c :: l) = true ∧ isBlank c = false ∧
      l.getLast? = some doubleQuote ∧ ('\n' ∉ name → '\n' ∉ c :: l) := by
  by_cases hid : isIdentifier name = true
  · obtain ⟨hne, hchars⟩ := isName_of_isIdentifier hid
    obtain ⟨c, n, rfl⟩ := List.exists_cons_of_ne_nil hne
    have hc := hchars c List.mem_cons_self
    have hblank := isBlank_of_isNameChar hc
    refine ⟨c, n ++ ' ' :: '=' :: ' ' :: doubleQuote :: (c :: n ++ [doubleQuote]),
      ?_, ?_, hblank, ?_, ?_⟩
    · simp [memberText, hid]
    · simp [isMemberLine, hc]
    · simp [List.getLast?_append, List.getLast?_cons]
    · intro hline
      simp only [List.mem_cons, not_or] at hline
      simp [hline, doubleQuote]
  · refine ⟨doubleQuote, name ++ doubleQuote :: ' ' :: '=' :: ' ' :: doubleQuote ::
      (name ++ [doubleQuote]), ?_, rfl, by decide, ?_, ?_⟩
    · simp [memberText, hid]
    · simp [List.getLast?_append, List.getLast?_cons]
    · intro hline
      simp [hline, doubleQuote]

theorem detect_print {source : Text} {ms : List Text} {layout : Layout}
    (hlayout : Layout.IsUsable layout.indent) (hms : ∀ m ∈ ms, '\n' ∉ m) :
    Layout.detect source ((series category layout).print ms) isMemberLine =
      ⟨layout.indent, .detect source⟩ := by
  have htidy := isTidy_series category hlayout
  cases ms with
  | nil =>
    obtain ⟨note, hnote, -⟩ := category.exists_example
    have hnotes : (series category layout).notes none none =
        [layout.indent ++ commentMark ++ (note ++ [doubleQuote])] := by
      rw [series_notes, notes, hnote]
      simp
    exact Series.detect_print_nil htidy passesNotes_isMemberLine hnotes
  | cons m ms =>
    obtain ⟨c, l, hml, hentry, hblank, hlast, hline⟩ := exists_memberText m
    have hm := hline (hms m List.mem_cons_self)
    have hindent : '\n' ∉ layout.indent := hlayout.not_mem (by decide) (by decide)
    have htail : ∃ comma, (comma = [] ∨ comma = [',']) ∧
        (series category layout).printFrom (some m) ms =
          comma ++ layout.newline.text ++ (series category layout).lastItems ms := by
      rw [Series.printFrom_eq]
      cases ms with
      | nil =>
        refine ⟨[], .inl rfl, ?_⟩
        simp [Series.between, layout_some category layout (some m) none (by simp)]
      | cons n ms =>
        refine ⟨[','], .inr rfl, ?_⟩
        simp [Series.between, layout_some category layout (some m) (some n) (by simp)]
    obtain ⟨comma, hcomma, htail⟩ := htail
    have hfirst : IsLine (layout.indent ++ c :: (l ++ comma)) := by
      simp only [List.mem_cons, not_or] at hm
      cases hcomma with
      | inl h =>
        subst h
        exact ⟨by simp [hindent, hm], by simp [List.getLast?_cons, hlast, doubleQuote]⟩
      | inr h =>
        subst h
        exact ⟨by simp [hindent, hm], by simp [List.getLast?_append, List.getLast?_cons]⟩
    refine Series.detect_print_cons (t := (series category layout).lastItems ms) htidy
      passesNotes_isMemberLine ?_ ⟨hlayout, hblank, hfirst⟩ (by simpa [isMemberLine] using hentry)
    rw [htail, series_item, hml]
    simp

end EnumFile

namespace Enumeration
variable {category : Category} {layout : Layout}

theorem isPrintable_of_isName {name : Text} (h : IsName name) : IsPrintable name :=
  ⟨h.not_mem (by decide), h.not_mem (by decide)⟩

theorem isInert_between (hlayout : Layout.IsUsable layout.indent) (prev next : Option Text) :
    IsInert (header category) ((series category layout).between prev next) := by
  have hnl : IsGap layout.newline.text := layout.newline.isGap_text
  have hplain {prev next : Option Text} (h : prev ≠ none ∨ next ≠ none) :
      IsInert (header category) ((series category layout).layout prev next) := by
    rw [layout_some category layout prev next h]
    exact isInert_of_isGap hnl
  cases prev with
  | some a =>
    cases next with
    | none => exact hplain (.inl (by simp))
    | some b =>
      have hcomma : IsInert (header category) ([] ++ [','] ++ []) :=
        isInert_of_mark (by decide) (by decide) (by decide) isGap_nil
      exact hcomma.append (hplain (.inl (by simp)))
  | none =>
    cases next with
    | some b => exact hplain (.inr (by simp))
    | none =>
      obtain ⟨note, hnote, -, hbrace⟩ := category.exists_example
      have hexample : IsInert (header category)
          (layout.indent ++ (commentMark ++ note) ++ [doubleQuote] ++ layout.newline.text) := by
        refine isInert_of_mark ?_ (by decide) (by decide) hnl
        have hindent : '\x7b' ∉ layout.indent := not_mem_of_isGap hlayout.isGap (by decide)
        have hquote : '\x7b' ≠ doubleQuote := by decide
        simp only [List.mem_append, List.mem_singleton, not_or] at hbrace ⊢
        exact ⟨⟨hindent, hbrace⟩, hquote⟩
      have hstart : IsInert (header category) layout.newline.text := isInert_of_isGap hnl
      have hboth := hstart.append hexample
      have hnotes : notes category layout.indent none none =
          [layout.indent ++ (commentMark ++ note ++ [doubleQuote])] := by
        rw [notes, hnote]
      simp only [Series.between, Series.layout, series_notes, hnotes, List.flatMap_cons,
        List.flatMap_nil, series_style, List.append_assoc, List.nil_append,
        List.append_nil] at hboth ⊢
      exact hboth

theorem not_mem_memberText {name : Text} (h : IsName name) {c : Char} (hc : isNameChar c = false)
    (hmark : c ∉ [' ', '=', doubleQuote]) : c ∉ memberText name := by
  have hname := h.not_mem hc
  simp only [List.mem_cons, List.not_mem_nil, or_false, not_or] at hmark
  obtain ⟨hspace, hequals, hquote⟩ := hmark
  unfold memberText
  split <;> simp [hname, hspace, hequals, hquote]

theorem isInert_member (hlayout : Layout.IsUsable layout.indent) {name : Text} (hname : IsName name)
    (next : Option Text) : IsInert (header category)
      (layout.indent ++ memberText name ++ (series category layout).between (some name) next) := by
  refine IsInert.append ?_ (isInert_between hlayout _ _)
  have hindent : '\x7b' ∉ layout.indent := not_mem_of_isGap hlayout.isGap (by decide)
  have hfree : '\x7b' ∉ memberText name := not_mem_memberText hname (by decide) (by decide)
  have hends : ∃ y, memberText name = y ++ [doubleQuote] :=
    ⟨(if isIdentifier name then name else doubleQuote :: (name ++ [doubleQuote])) ++
      ' ' :: '=' :: ' ' :: doubleQuote :: name, by simp [memberText]⟩
  obtain ⟨y, hy⟩ := hends
  rw [hy] at hfree ⊢
  have hmark : IsInert (header category) (layout.indent ++ y ++ [doubleQuote] ++ []) :=
    isInert_of_mark (by simpa [hindent] using hfree) (by decide) (by decide) isGap_nil
  simpa using hmark

theorem header_insertion (hlayout : Layout.IsUsable layout.indent) {name : Text}
    (hname : IsName name) (prev next : Option Text) {u : Text} (hu : '\x7b' ∉ u) (rest : Text) :
    header category (u ++ ((series category layout).insertion prev name next ++ rest)) = none := by
  have hindent : '\x7b' ∉ layout.indent := not_mem_of_isGap hlayout.isGap (by decide)
  have hnl : '\x7b' ∉ layout.newline.text := not_mem_of_isGap layout.newline.isGap_text (by decide)
  have hbetween : '\x7b' ∉ (series category layout).between prev (some name) := by
    have hplain := layout_some category layout prev (some name) (by simp)
    cases prev with
    | none => simpa [Series.between, hplain] using hnl
    | some a => simpa [Series.between, hplain] using hnl
  have hfree : '\x7b' ∉ u ++ ((series category layout).between prev (some name) ++
      (layout.indent ++ memberText name)) := by
    simp only [List.mem_append, not_or]
    exact ⟨hu, hbetween, hindent, not_mem_memberText hname (by decide) (by decide)⟩
  have hmark : '=' ∈ u ++ ((series category layout).between prev (some name) ++
      (layout.indent ++ memberText name)) := by
    simp [memberText]
  have hnone (more : Text) : header category (_ ++ more) = none :=
    header_mark hfree hmark (by decide) (by decide) more
  rw [Series.insertion]
  simpa using hnone ((series category layout).between (some name) next ++ rest)

theorem no_return_between (hlayout : Layout.IsUsable layout.indent) (hlf : layout.newline = .lf)
    (prev next : Option Text) : '\r' ∉ (series category layout).between prev next := by
  refine Series.not_mem_between (by rw [series_style, hlf]; decide) (by decide)
    (fun prev next l hl => ?_) prev next
  cases prev with
  | some a => exact absurd hl (by simp [notes])
  | none =>
    cases next with
    | some b => exact absurd hl (by simp [notes])
    | none =>
      obtain ⟨note, hnote, hends, -⟩ := category.exists_example
      have hindent : '\r' ∉ layout.indent := hlayout.not_mem (by decide) (by decide)
      have hfree : '\r' ∉ note := fun h => absurd (hends _ h) (by decide)
      rw [List.mem_singleton.1 hl, hnote]
      simp [hindent, hfree, commentMark, doubleQuote]

end Enumeration
end IconCatalog
