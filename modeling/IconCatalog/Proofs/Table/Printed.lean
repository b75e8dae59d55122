import IconCatalog.Proofs.Source.Series
import IconCatalog.Proofs.Table.Grammar
import IconCatalog.Table.Printer
/-!
Printed lookup tables. The groups of a table are printed as one series of entries, which the reader
takes back entry by entry into the same groups.
-/
namespace IconCatalog
open Text Source

def Category.rank : Category → Nat
  | token => 0
  | wallet => 1
  | system => 2

theorem Category.exists_placeholder (c : Category) :
    ∃ note, c.placeholder = commentMark ++ note ∧ ∀ x ∈ note, isLineEnd x = false := by
  have hline : ∀ x ∈ c.placeholder.drop 2, isLineEnd x = false :=
    forall_of_all (by cases c <;> decide)
  exact ⟨c.placeholder.drop 2, by cases c <;> rfl, hline⟩

namespace Table

def listing (t : Table) : List (Category × Entry) :=
  Category.all.flatMap fun c => (t.group c).map (c, ·)

def entryText (layout : Layout) (e : Entry) : Text :=
  let nl := layout.newline.text
  "\x22".toList ++ e.name ++ "\x22: \x7b".toList ++ nl ++
  layout.indent ++ layout.indent ++ "lightMode: ".toList ++ e.light ++ ",".toList ++ nl ++
  layout.indent ++ layout.indent ++ "darkMode: ".toList ++ e.dark ++ nl ++
  layout.indent ++ "\x7d".toList

theorem entryText_eq (layout : Layout) (e : Entry) :
    entryText layout e = doubleQuote :: (e.name ++ doubleQuote :: ':' :: ' ' :: '\x7b' ::
      (layout.newline.text ++ (layout.indent ++ (layout.indent ++ (lightLabel ++ ':' :: ' ' ::
        (e.light ++ ',' :: (layout.newline.text ++ (layout.indent ++ (layout.indent ++
          (darkLabel ++ ':' :: ' ' :: (e.dark ++ (layout.newline.text ++ (layout.indent ++
            ['\x7d']))))))))))))) := by
  have hquote : "\x22".toList = [doubleQuote] := by decide
  have hopen : "\x22: \x7b".toList = [doubleQuote, ':', ' ', '\x7b'] := by decide
  have hlight : "lightMode: ".toList = lightLabel ++ [':', ' '] := by decide
  have hcomma : ",".toList = [','] := by decide
  have hdark : "darkMode: ".toList = darkLabel ++ [':', ' '] := by decide
  have hclose : "\x7d".toList = ['\x7d'] := by decide
  unfold entryText
  rw [hquote, hopen, hlight, hcomma, hdark, hclose]
  simp only [List.append_assoc, List.cons_append, List.nil_append]

def entryMarks : Text := lightLabel ++ darkLabel ++ [doubleQuote, ':', ' ', '\x7b', ',', '\x7d']

theorem count_entryText {layout : Layout} {x : Char} (hnl : x ∉ layout.newline.text)
    (hindent : x ∉ layout.indent) (hmark : x ∉ entryMarks) (e : Entry) :
    (entryText layout e).count x = e.name.count x + e.light.count x + e.dark.count x := by
  simp only [entryMarks, List.mem_append, List.mem_cons, List.not_mem_nil, or_false,
    not_or] at hmark
  obtain ⟨⟨hlight, hdark⟩, hquote, hcolon, hspace, hopen, hcomma, hclose⟩ := hmark
  rw [entryText_eq]
  simp only [List.count_append, List.count_cons_of_ne (Ne.symm hquote),
    List.count_cons_of_ne (Ne.symm hcolon), List.count_cons_of_ne (Ne.symm hspace),
    List.count_cons_of_ne (Ne.symm hopen), List.count_cons_of_ne (Ne.symm hcomma),
    List.count_cons_of_ne (Ne.symm hclose), List.count_eq_zero.2 hnl, List.count_eq_zero.2 hindent,
    List.count_eq_zero.2 hlight, List.count_eq_zero.2 hdark, List.count_nil]
  omega

theorem not_mem_entryText {layout : Layout} {x : Char} (hnl : x ∉ layout.newline.text)
    (hindent : x ∉ layout.indent) (hmark : x ∉ entryMarks) {e : Entry} (hname : x ∉ e.name)
    (hlight : x ∉ e.light) (hdark : x ∉ e.dark) : x ∉ entryText layout e := by
  rw [← List.count_eq_zero, count_entryText hnl hindent hmark, List.count_eq_zero.2 hname,
    List.count_eq_zero.2 hlight, List.count_eq_zero.2 hdark]

theorem renderEntry_eq (layout : Layout) (e : Entry) :
    renderEntry layout e = layout.indent ++ entryText layout e := by
  unfold renderEntry entryText
  simp only [List.append_assoc]

/-- The lines between two entries: a blank one behind a group, and the comments of all groups that
are opened. -/
def notes (indent : Text) (prev next : Option Category) : List Text :=
  (if prev.any (· ≠ .system) && prev ≠ next then [[]] else []) ++
  (Category.all.filter fun c => prev.all (·.rank < c.rank) && next.all (c.rank ≤ ·.rank)).map
    fun c => indent ++ c.placeholder

def series (layout : Layout) : Series (Category × Entry) where
  style := layout
  item := fun (_, e) => entryText layout e
  notes := fun prev next => notes layout.indent (prev.map (·.1)) (next.map (·.1))

@[simp] theorem series_style (layout : Layout) : (series layout).style = layout := rfl

@[simp] theorem series_item (layout : Layout) (c : Category) (e : Entry) :
    (series layout).item (c, e) = entryText layout e := rfl

@[simp] theorem series_notes (layout : Layout) (prev next : Option (Category × Entry)) :
    (series layout).notes prev next = notes layout.indent (prev.map (·.1)) (next.map (·.1)) := rfl

theorem notes_self (indent : Text) (c : Category) : notes indent (some c) (some c) = [] := by
  cases c <;> rfl

theorem lastItems_group (layout : Layout) (c : Category) (e : Entry) (es : List Entry)
    (rest : List (Category × Entry)) :
    (series layout).lastItems ((e :: es).map (c, ·) ++ rest) =
      renderEntries layout (rest ≠ []) (e :: es) ++
        (notes layout.indent (some c) (rest.head?.map (·.1))).flatMap (· ++ layout.newline.text) ++
        (series layout).lastItems rest := by
  induction es generalizing e with
  | nil =>
    cases rest with
    | nil =>
      simp [Series.lastItems, Series.printFrom, Series.between, Series.layout, renderEntries,
        renderEntry_eq]
    | cons b rest =>
      simp [Series.lastItems, Series.printFrom, Series.between, Series.layout, renderEntries,
        renderEntry_eq]
  | cons f es ih =>
    have hnext := ih f
    have hstep (more : List (Category × Entry)) :
        (series layout).lastItems ((c, e) :: (c, f) :: more) =
          renderEntry layout e ++ [','] ++ layout.newline.text ++
            (series layout).lastItems ((c, f) :: more) := by
      simp [Series.lastItems, Series.printFrom, Series.between, Series.layout, renderEntry_eq,
        notes_self]
    simp only [List.map_cons, List.cons_append] at hnext ⊢
    rw [hstep, hnext]
    simp [renderEntries]

def opening (opened next : Option Category) : List Category :=
  Category.all.filter fun c => opened.all (·.rank < c.rank) && next.all (c.rank ≤ ·.rank)

theorem opening_of_first {opened : Option Category} {c : Category}
    (hc : c.rank = opened.elim 0 (·.rank + 1)) : opening opened (some c) = [c] := by
  cases opened with
  | none => cases c <;> first | rfl | exact absurd hc (by decide)
  | some o => cases o <;> cases c <;> first | rfl | exact absurd hc (by decide)

theorem opening_of_empty {opened next : Option Category} {c : Category}
    (hc : c.rank = opened.elim 0 (·.rank + 1)) (hnext : ∀ d ∈ next, c.rank < d.rank) :
    opening opened next = c :: opening (some c) next := by
  cases next with
  | none =>
    cases opened with
    | none => cases c <;> first | rfl | exact absurd hc (by decide)
    | some o => cases o <;> cases c <;> first | rfl | exact absurd hc (by decide)
  | some d =>
    have hd := hnext d rfl
    cases opened with
    | none =>
      cases c <;> first
        | exact absurd hc (by decide)
        | cases d <;> rfl
    | some o =>
      cases o <;> cases c <;> first
        | exact absurd hc (by decide)
        | cases d <;> first | rfl | exact absurd hd (by decide)

def comments (indent : Text) (opened next : Option Category) : List Text :=
  (opening opened next).map fun c => indent ++ c.placeholder

def remainder (layout : Layout) (opened : Option Category) (l : List (Category × Entry)) : Text :=
  (comments layout.indent opened (l.head?.map (·.1))).flatMap (· ++ layout.newline.text) ++
    (series layout).lastItems l

theorem remainder_group (layout : Layout) {opened : Option Category} {c : Category}
    (hc : c.rank = opened.elim 0 (·.rank + 1)) (es : List Entry)
    {rest : List (Category × Entry)} (hrest : ∀ x ∈ rest, c.rank < x.1.rank) :
    remainder layout opened (es.map (c, ·) ++ rest) = renderGroup layout c es (rest ≠ []) ++
      (if c = .system then [] else separator layout es) ++ remainder layout (some c) rest := by
  have hnext : ∀ d ∈ rest.head?.map (·.1), c.rank < d.rank := by
    intro d hd
    obtain ⟨x, hx, rfl⟩ := Option.map_eq_some_iff.1 hd
    exact hrest x (List.mem_of_head? hx)
  cases es with
  | nil =>
    rw [List.map_nil, List.nil_append, remainder, comments, opening_of_empty hc hnext, remainder]
    simp [renderGroup, renderEntries, separator, comments]
  | cons e es =>
    have hnotes : notes layout.indent (some c) (rest.head?.map (·.1)) =
        (if c = .system then [] else [[]]) ++
          comments layout.indent (some c) (rest.head?.map (·.1)) := by
      have hne : some c ≠ rest.head?.map (·.1) := fun h =>
        absurd (hnext c h.symm) (Nat.lt_irrefl _)
      rw [notes, comments, opening]
      by_cases hsystem : c = .system
      · simp [hsystem]
      · simp [hsystem, hne]
    rw [remainder, lastItems_group, hnotes, remainder]
    simp only [List.map_cons, List.cons_append, List.head?_cons, Option.map_some, comments,
      opening_of_first hc]
    by_cases hsystem : c = .system
    · simp [hsystem, renderGroup]
    · simp [hsystem, renderGroup, separator]

theorem renderBody_eq (t : Table) (layout : Layout) :
    t.renderBody layout = (series layout).print t.listing := by
  have hlisting : t.listing = t.tokens.map (.token, ·) ++
      (t.wallets.map (.wallet, ·) ++ (t.systems.map (.system, ·) ++ [])) := by
    simp [listing, Category.all, group]
  have hprint : (series layout).print t.listing =
      layout.newline.text ++ remainder layout none t.listing := by
    rw [Series.print, Series.printFrom_eq, Series.between, Series.layout, List.flatMap_cons]
    simp [remainder, notes, comments, opening]
  have hlater {c d : Category} (h : c.rank < d.rank) (es : List Entry) :
      ∀ x ∈ es.map (d, ·), c.rank < x.1.rank := by
    intro x hx
    obtain ⟨e, -, rfl⟩ := List.mem_map.1 hx
    exact h
  have hsystems : ∀ x ∈ t.systems.map (Category.system, ·) ++ [],
      Category.wallet.rank < x.1.rank := by
    rw [List.append_nil]
    exact hlater (by decide) t.systems
  have hwallets : ∀ x ∈ t.wallets.map (Category.wallet, ·) ++ (t.systems.map (.system, ·) ++ []),
      Category.token.rank < x.1.rank := by
    intro x hx
    cases List.mem_append.1 hx with
    | inl hx => exact hlater (by decide) t.wallets x hx
    | inr hx => exact Nat.lt_trans (by decide) (hsystems x hx)
  have hnil : remainder layout (some .system) [] = [] := rfl
  rw [hprint, hlisting, remainder_group layout rfl t.tokens hwallets,
    remainder_group layout rfl t.wallets hsystems, remainder_group layout rfl t.systems (by simp),
    hnil]
  simp [renderBody]

theorem isNote_of_mem_notes {indent : Text} {prev next : Option Category} {l : Text}
    (hl : l ∈ notes indent prev next) : Series.IsNote indent l := by
  cases List.mem_append.1 hl with
  | inl hl =>
    split at hl
    · exact .inl (List.mem_singleton.1 hl)
    · exact absurd hl (by simp)
  | inr hl =>
    obtain ⟨c, -, rfl⟩ := List.mem_map.1 hl
    obtain ⟨note, hnote, hends⟩ := c.exists_placeholder
    exact .inr ⟨note, by simp [hnote], hends⟩

theorem isTidy_series {layout : Layout} (h : Layout.IsUsable layout.indent) :
    (series layout).IsTidy where
  usable := h
  notes := fun _ _ _ hl => isNote_of_mem_notes hl

end Table

namespace Entry

/-- An entry as it is read: its name is on one line, and its expressions are kept as they are. -/
structure IsSettled (e : Entry) : Prop where
  line : '\n' ∉ e.name
  light : Source.IsSettled e.light
  dark : Source.IsSettled e.dark

/-- An entry that is read back from its printed form, which puts the name in double quotes. -/
structure IsPrintable (e : Entry) : Prop extends e.IsSettled where
  quote : doubleQuote ∉ e.name

theorem IsPrintable.isKey {e : Entry} (h : e.IsPrintable) :
    IsKey (doubleQuote :: (e.name ++ [doubleQuote])) e.name :=
  .quoted (.inl rfl) fun _ hc => ⟨fun heq => h.quote (heq ▸ hc), fun heq => h.line (heq ▸ hc)⟩

end Entry

namespace Table

theorem isField_printed {label v e w : Text} (hv : IsGap v) (hw : IsGap w)
    (he : Source.IsSettled e) : IsField label (v ++ label ++ ':' :: ' ' :: (e ++ w)) e := by
  have hspace : ∀ c ∈ [' '], isBlank c = true := forall_of_all (by decide)
  have hw' : ∀ c ∈ w, isBlank c = true := fun c hc => isBlank_of_isGap (hw c hc)
  have hexp : IsExpression (' ' :: e ++ w) :=
    (isExpression_append_blank hw').2 ((isExpression_blank_append hspace).2 he.expression)
  have hvalue : trimEnd (skipGap (' ' :: e ++ w)) = e := by
    have hskip : skipGap (' ' :: e ++ w) = e ++ w := by
      have hstart : skipGap (e ++ w) = e ++ w := by
        rw [skipGap_append_of_filled he.expression.filled, he.start]
      rw [List.cons_append, ← List.singleton_append, skipGap_append isGap_space, hstart]
    rw [hskip, trimEnd_append_blank hw', he.stop]
  have hfield : IsField label (v ++ label ++ [] ++ ':' :: (' ' :: e ++ w)) _ :=
    .mk hv (fun _ h => nomatch h) hexp
  rw [hvalue] at hfield
  simpa using hfield

theorem isGap_start {layout : Layout} (hlayout : Layout.IsUsable layout.indent) :
    IsGap (layout.newline.text ++ layout.indent ++ layout.indent) := by
  have hnl : IsGap layout.newline.text := layout.newline.isGap_text
  exact (hnl.append hlayout.isGap).append hlayout.isGap

theorem isEntry_entryText {layout : Layout} (hlayout : Layout.IsUsable layout.indent) {e : Entry}
    (he : e.IsPrintable) {outer : Text} (houter : IsComma outer) :
    IsEntry (entryText layout e ++ outer) e := by
  have hnl : IsGap layout.newline.text := layout.newline.isGap_text
  have hstart := isGap_start hlayout
  have hlight : IsField lightLabel _ e.light := isField_printed hstart isGap_nil he.light
  have hdark : IsField darkLabel _ e.dark := isField_printed hstart isGap_nil he.dark
  have hexpressions := IsExpressions.mk isGap_nil isGap_space hlight hdark .left_out
    (hnl.append hlayout.isGap) houter
  have hentry := IsEntry.mk he.isKey hexpressions
  obtain ⟨name, light, dark⟩ := e
  rw [entryText_eq]
  simp only [List.append_assoc, List.cons_append, List.nil_append, List.append_nil] at hentry ⊢
  exact hentry

def IsPrintable (t : Table) : Prop :=
  ∀ c, ∀ e ∈ t.group c, e.IsPrintable ∧ c.IsCalledIn e.light

theorem mem_listing {t : Table} {c : Category} {e : Entry} :
    (c, e) ∈ t.listing ↔ e ∈ t.group c := by
  simp [listing, Category.mem_all]

@[simp] theorem setGroup_group (t : Table) (c : Category) : t.setGroup c (t.group c) = t := by
  cases c <;> rfl

theorem map_listing (t : Table) :
    t.listing.map (·.2) = t.group .token ++ (t.group .wallet ++ t.group .system) := by
  simp [listing, Category.all, Function.comp_def]

theorem exists_listing (t : Table) (c : Category) : ∃ before behind, ∀ es : List Entry,
    (t.setGroup c es).listing = before ++ (es.map (c, ·) ++ behind) := by
  cases c with
  | token =>
    exact ⟨[], t.wallets.map (.wallet, ·) ++ t.systems.map (.system, ·), fun es => by
      simp [listing, Category.all, group, setGroup]⟩
  | wallet =>
    exact ⟨t.tokens.map (.token, ·), t.systems.map (.system, ·), fun es => by
      simp [listing, Category.all, group, setGroup]⟩
  | system =>
    exact ⟨t.tokens.map (.token, ·) ++ t.wallets.map (.wallet, ·), [], fun es => by
      simp [listing, Category.all, group, setGroup]⟩

theorem reads_entry {layout : Layout} (hlayout : Layout.IsUsable layout.indent)
    {x : Category × Entry} (hx : x.2.IsPrintable) : (series layout).Reads IsEntry (·.2) x where
  plain := by
    cases x
    simpa using isEntry_entryText hlayout hx .left_out
  comma := isEntry_entryText hlayout hx (.written isGap_nil)

theorem IsPrintable.of_mem_listing {t : Table} (ht : t.IsPrintable) :
    ∀ x ∈ t.listing, x.2.IsPrintable := fun _ h => (ht _ _ (mem_listing.1 h)).1

theorem filter_group {t : Table} (ht : ∀ c, ∀ e ∈ t.group c, c.IsCalledIn e.light)
    (c d : Category) : (t.group d).filter (c.calls ·.light) = if c = d then t.group d else [] := by
  split
  · next h =>
    subst h
    exact List.filter_eq_self.2 fun e he => Category.calls_iff.2 (ht c e he)
  · next h =>
    refine List.filter_eq_nil_iff.2 fun e he hcalls => h ?_
    exact (Category.calls_iff.1 hcalls).unique (ht d e he)

theorem ofEntries_listing {t : Table} (ht : ∀ c, ∀ e ∈ t.group c, c.IsCalledIn e.light) :
    ofEntries (t.listing.map (·.2)) = .ok t := by
  rw [ofEntries_eq_ok_iff]
  constructor
  · intro e he
    obtain ⟨⟨c, e⟩, hmem, rfl⟩ := List.mem_map.1 he
    exact ⟨c, ht c e (mem_listing.1 hmem)⟩
  · refine ext_group fun c => ?_
    rw [group_grouped, map_listing, List.filter_append, List.filter_append, filter_group ht,
      filter_group ht, filter_group ht]
    cases c <;> simp

end Table

namespace TableFile
open Table

theorem passesNotes_isEntryLine : Series.PassesNotes isEntryLine := by
  refine ⟨rfl, fun note => ?_⟩
  simp [isEntryLine, doubleQuote, singleQuote]

theorem detect_print {source : Text} {l : List (Category × Entry)} {layout : Layout}
    (hlayout : Layout.IsUsable layout.indent) (hl : ∀ x ∈ l, '\n' ∉ x.2.name) :
    Layout.detect source ((series layout).print l) isEntryLine =
      ⟨layout.indent, .detect source⟩ := by
  have htidy := isTidy_series hlayout
  cases l with
  | nil =>
    obtain ⟨note, hnote, -⟩ := Category.token.exists_placeholder
    have hnotes : (series layout).notes none none = (layout.indent ++ commentMark ++ note) ::
        [layout.indent ++ Category.wallet.placeholder,
          layout.indent ++ Category.system.placeholder] := by
      simp [notes, Category.all, hnote]
    exact Series.detect_print_nil htidy passesNotes_isEntryLine hnotes
  | cons x l =>
    obtain ⟨c, e⟩ := x
    have hname : '\n' ∉ e.name := hl _ List.mem_cons_self
    have hline :
        IsLine (layout.indent ++ doubleQuote :: (e.name ++ [doubleQuote, ':', ' ', '\x7b'])) := by
      have hindent : '\n' ∉ layout.indent := hlayout.not_mem (by decide) (by decide)
      refine ⟨?_, ?_⟩
      · simp [doubleQuote, hindent, hname]
      · simp [List.getLast?_append, List.getLast?_cons]
    have hsplit : ∃ more, entryText layout e =
        doubleQuote :: (e.name ++ [doubleQuote, ':', ' ', '\x7b']) ++ layout.newline.text ++
          more := by
      rw [entryText_eq]
      exact ⟨layout.indent ++ (layout.indent ++ (lightLabel ++ ':' :: ' ' :: (e.light ++ ',' ::
        (layout.newline.text ++ (layout.indent ++ (layout.indent ++ (darkLabel ++ ':' :: ' ' ::
          (e.dark ++ (layout.newline.text ++ (layout.indent ++ ['\x7d'])))))))))), by simp⟩
    obtain ⟨more, hmore⟩ := hsplit
    refine Series.detect_print_cons (t := more ++ (series layout).printFrom (some (c, e)) l) htidy
      passesNotes_isEntryLine ?_ ⟨hlayout, by decide, hline⟩ rfl
    rw [series_item, hmore]
    simp only [series_style, List.append_assoc]

end TableFile
end IconCatalog
