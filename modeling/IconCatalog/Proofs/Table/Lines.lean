import IconCatalog.Proofs.Table.Icon
/-!
The lines of a printed table: four for each entry, with comments and blank lines between the groups.
No heading of a table starts in such a line, nor in a comment that is put behind it.
-/
namespace IconCatalog.Table
open Text Source

def entryLines (layout : Layout) (e : Entry) (more : Bool) : List Text :=
  [layout.indent ++ doubleQuote :: (e.name ++ [doubleQuote, ':', ' ', '\x7b']),
    layout.indent ++ (layout.indent ++ (lightLabel ++ ':' :: ' ' :: (e.light ++ [',']))),
    layout.indent ++ (layout.indent ++ (darkLabel ++ ':' :: ' ' :: e.dark)),
    layout.indent ++ '\x7d' :: (if more then [','] else [])]

def listingLines (layout : Layout) : List (Category × Entry) → List Text
  | [] => []
  | (c, e) :: l => entryLines layout e (l ≠ []) ++
    (notes layout.indent (some c) (l.head?.map (·.1)) ++ listingLines layout l)

def bodyLines (layout : Layout) (t : Table) : List Text :=
  notes layout.indent none (t.listing.head?.map (·.1)) ++ listingLines layout t.listing

theorem lastItems_eq_lines (layout : Layout) (l : List (Category × Entry)) :
    (series layout).lastItems l = (listingLines layout l).flatMap (· ++ layout.newline.text) := by
  induction l with
  | nil => rfl
  | cons x l ih =>
    obtain ⟨c, e⟩ := x
    rw [Series.lastItems, Series.printFrom_eq, ih, series_item, entryText_eq, listingLines]
    cases l with
    | nil => simp [Series.between, Series.layout, entryLines]
    | cons b l => simp [Series.between, Series.layout, entryLines]

theorem renderBody_eq_lines (layout : Layout) (t : Table) : t.renderBody layout =
    ([] :: bodyLines layout t).flatMap (· ++ layout.newline.text) := by
  rw [renderBody_eq, Series.print, Series.printFrom_eq, lastItems_eq_lines, bodyLines]
  simp [Series.between, Series.layout]

/-- A line with closed literals, in which no heading starts. -/
structure IsPlain (l : Text) : Prop where
  line : IsLine l
  closed : l.foldl Literal.step .outside = .outside
  quiet : ∀ w, 'x' ∉ w → IsQuiet (l ++ w)

theorem isPlain_of_no_quote {l : Text} (hl : ∀ c ∈ l, Literal.isQuote c = false) (hline : IsLine l)
    (hfree : 'x' ∉ l) : IsPlain l where
  line := hline
  closed := foldl_step_of_no_quote hl
  quiet := fun w hw => isQuiet_of_not_mem (by simp [hfree, hw])

theorem isPlain_of_name {y z name : Text} (hname : IsName name)
    (hline : IsLine (y ++ doubleQuote :: (name ++ doubleQuote :: z)))
    (hy : ∀ x ∈ y, Literal.isQuote x = false) (hz : ∀ x ∈ z, Literal.isQuote x = false)
    (hfree : 'x' ∉ y) (hend : 'x' ∉ z) :
    IsPlain (y ++ doubleQuote :: (name ++ doubleQuote :: z)) where
  line := hline
  closed := by
    have hinside : ∀ x ∈ name, x ≠ '\\' ∧ x ≠ doubleQuote := fun x hx =>
      ⟨fun h => hname.not_mem (by decide) (h ▸ hx), fun h => hname.not_mem (by decide) (h ▸ hx)⟩
    have hopen : Literal.step .outside doubleQuote = .inside doubleQuote := by decide
    have hclose : Literal.step (.inside doubleQuote) doubleQuote = .outside := by decide
    rw [List.foldl_append, foldl_step_of_no_quote hy, List.foldl_cons, hopen, List.foldl_append,
      foldl_step_inside hinside, List.foldl_cons, hclose, foldl_step_of_no_quote hz]
  quiet := fun w hw => by
    have hbehind : IsQuiet (z ++ w) := isQuiet_of_not_mem (by simp [hend, hw])
    have hgap : ∀ x ∈ name, isGap x = false := fun x hx => isGap_of_isNameChar (hname.2 x hx)
    have hquiet := isQuiet_append_quote (isQuiet_of_not_mem hfree)
      (isQuiet_append_quote (isQuiet_of_no_gap hgap) hbehind)
    simpa using hquiet

variable {layout : Layout}

theorem isLine_of_mem_entryLines (hlayout : Layout.IsUsable layout.indent) {name : Text}
    (hname : IsName name) (c : Category) (artwork : Artwork) (more : Bool) :
    ∀ l ∈ entryLines layout (.ofIcon c name artwork) more, IsLine l := by
  obtain ⟨a, b, ha, hb, h⟩ := Entry.exists_ofIcon hname c artwork
  have hfree {x : Char} (hx : isNameChar x = false) (hindent : x ∉ layout.indent)
      (hmark : x ∉ '-' :: ' ' :: '(' :: ')' :: ',' :: entryMarks) :
      ∀ l ∈ entryLines layout (.ofIcon c name artwork) more, x ∉ l := by
    simp only [entryMarks, List.mem_cons, List.mem_append, List.not_mem_nil, or_false,
      not_or] at hmark
    obtain ⟨hdash, hspace, hopen, hclose, hcomma, ⟨hlight, hdark⟩, hquote, hcolon, -, hbrace, -,
      hend⟩ := hmark
    have hhelper : x ∉ c.helper := fun hmem => by
      rw [Entry.helper_isNameChar c x hmem] at hx
      exact absurd hx (by simp)
    have hcall {a : Text} (ha : IsArgument a) : x ∉ Entry.call c a :=
      Entry.not_mem_call c (ha.not_mem hx hdash) hhelper (by simp [hopen, hquote, hclose])
    have hcloses : x ∉ (if more then [','] else []) := by cases more <;> simp [hcomma]
    simp [h, entryLines, hindent, hquote, hname.not_mem hx, hcolon, hspace, hbrace, hlight, hdark,
      hcall ha, hcall hb, hcomma, hend, hcloses]
  have hindent {x : Char} (hspace : x ≠ ' ') (htab : x ≠ '\t') : x ∉ layout.indent :=
    hlayout.not_mem hspace htab
  intro l hl
  exact ⟨hfree (by decide) (hindent (by decide) (by decide)) (by decide) l hl, fun h =>
    hfree (by decide) (hindent (by decide) (by decide)) (by decide) l hl (List.mem_of_getLast? h)⟩

theorem isQuote_of_mem_indent (hlayout : Layout.IsUsable layout.indent) :
    ∀ c ∈ layout.indent, Literal.isQuote c = false :=
  fun c hc => (isNeutral_of_isBlank (hlayout.isBlank c hc)).quote

theorem isPlain_of_call (hlayout : Layout.IsUsable layout.indent) {label z : Text} {c : Category}
    {a : Text} (ha : IsArgument a) (hline : IsLine (layout.indent ++ (layout.indent ++
      (label ++ ':' :: ' ' :: (Entry.call c a ++ z)))))
    (hlabel : ∀ x ∈ label ++ [':', ' '], Literal.isQuote x = false)
    (hz : ∀ x ∈ z, Literal.isQuote x = false) (hword : 'x' ∉ label) (hend : 'x' ∉ z) :
    IsPlain (layout.indent ++ (layout.indent ++ (label ++ ':' :: ' ' ::
      (Entry.call c a ++ z)))) := by
  obtain ⟨y, hy⟩ : ∃ y, y = layout.indent ++ (layout.indent ++ (label ++ [':', ' '])) := ⟨_, rfl⟩
  have hsplit : layout.indent ++ (layout.indent ++ (label ++ ':' :: ' ' :: (Entry.call c a ++ z))) =
      y ++ (Entry.call c a ++ z) := by simp [hy]
  have hquote : ∀ x ∈ y, Literal.isQuote x = false := by
    intro x hx
    rw [hy] at hx
    rcases List.mem_append.1 hx with hx | hx
    · exact isQuote_of_mem_indent hlayout x hx
    · exact (List.mem_append.1 hx).elim (isQuote_of_mem_indent hlayout x) (hlabel x)
  have hfree : 'x' ∉ y := by
    have hindent : 'x' ∉ layout.indent := hlayout.not_mem (by decide) (by decide)
    simp [hy, hindent, hword]
  refine ⟨hline, ?_, fun w hw => ?_⟩
  · rw [hsplit, List.foldl_append, foldl_step_of_no_quote hquote, List.foldl_append,
      (Entry.isSettled_call c ha).expression.closed, foldl_step_of_no_quote hz]
  · have hbehind : IsQuiet (')' :: (z ++ w)) := isQuiet_of_not_mem (by simp [hend, hw])
    rw [hsplit, List.append_assoc, List.append_assoc]
    exact isQuiet_call ha hfree hbehind

theorem isPlain_of_mem_entryLines (hlayout : Layout.IsUsable layout.indent) {name : Text}
    (hname : IsName name) (c : Category) (artwork : Artwork) (more : Bool) :
    ∀ l ∈ entryLines layout (.ofIcon c name artwork) more, IsPlain l := by
  have hline := isLine_of_mem_entryLines hlayout hname c artwork more
  have hfree : 'x' ∉ layout.indent := hlayout.not_mem (by decide) (by decide)
  have hindent := isQuote_of_mem_indent hlayout
  obtain ⟨a, b, ha, hb, h⟩ := Entry.exists_ofIcon hname c artwork
  rw [h] at hline ⊢
  simp only [entryLines, List.forall_mem_cons] at hline ⊢
  obtain ⟨hfirst, hlight, hdark, hlast, -⟩ := hline
  refine ⟨isPlain_of_name hname hfirst hindent (forall_of_all (by decide)) hfree (by decide),
    isPlain_of_call hlayout ha hlight (forall_of_all (by decide)) (forall_of_all (by decide))
      (by decide) (by decide), ?_, ?_, fun _ hx => nomatch hx⟩
  · have hplain := isPlain_of_call hlayout (z := []) hb (by simpa using hdark)
      (forall_of_all (by decide)) (fun _ hx => nomatch hx) (by decide) (by simp)
    simpa using hplain
  · have hbrace : ∀ x ∈ '\x7d' :: (if more then [','] else []), Literal.isQuote x = false := by
      cases more <;> exact forall_of_all (by decide)
    refine isPlain_of_no_quote (fun x hx => ?_) hlast (by cases more <;> simp [hfree])
    exact (List.mem_append.1 hx).elim (hindent x) (hbrace x)

theorem isPlain_of_mem_notes (hlayout : Layout.IsUsable layout.indent)
    {prev next : Option Category} {l : Text} (hl : l ∈ notes layout.indent prev next) :
    IsPlain l := by
  have hline := (isNote_of_mem_notes hl).isLine hlayout
  cases List.mem_append.1 hl with
  | inl hl =>
    split at hl
    · obtain rfl := List.mem_singleton.1 hl
      exact isPlain_of_no_quote (fun _ h => nomatch h) hline (by simp)
    · exact absurd hl (by simp)
  | inr hl =>
    obtain ⟨c, -, rfl⟩ := List.mem_map.1 hl
    have hquote : ∀ x ∈ c.placeholder, Literal.isQuote x = false := by
      cases c <;> exact forall_of_all (by decide)
    have hfree : 'x' ∉ c.placeholder := by cases c <;> decide
    have hindent : 'x' ∉ layout.indent := hlayout.not_mem (by decide) (by decide)
    refine isPlain_of_no_quote (fun x hx => ?_) hline (by simp [hindent, hfree])
    exact (List.mem_append.1 hx).elim (isQuote_of_mem_indent hlayout x) (hquote x)

def AreIcons (l : List (Category × Entry)) : Prop :=
  ∀ c e, (c, e) ∈ l → ∃ name artwork, IsName name ∧ e = .ofIcon c name artwork

theorem HoldsIcons.areIcons {t : Table} (ht : t.HoldsIcons) : AreIcons t.listing :=
  fun c e hx => ht c e (mem_listing.1 hx)

theorem isPlain_of_mem_listingLines (hlayout : Layout.IsUsable layout.indent)
    {l : List (Category × Entry)} (hl : AreIcons l) : ∀ x ∈ listingLines layout l, IsPlain x := by
  induction l with
  | nil => exact fun _ hx => nomatch hx
  | cons y l ih =>
    obtain ⟨c, e⟩ := y
    obtain ⟨name, artwork, hname, rfl⟩ := hl c e List.mem_cons_self
    intro x hx
    rw [listingLines, List.mem_append, List.mem_append] at hx
    rcases hx with hx | hx | hx
    · exact isPlain_of_mem_entryLines hlayout hname c artwork _ x hx
    · exact isPlain_of_mem_notes hlayout hx
    · exact ih (fun c e he => hl c e (.tail _ he)) x hx

theorem isPlain_of_mem_bodyLines (hlayout : Layout.IsUsable layout.indent) {t : Table}
    (ht : t.HoldsIcons) : ∀ l ∈ bodyLines layout t, IsPlain l := by
  intro l hl
  cases List.mem_append.1 hl with
  | inl hl => exact isPlain_of_mem_notes hlayout hl
  | inr hl => exact isPlain_of_mem_listingLines hlayout ht.areIcons l hl

theorem lines_renderBody (hlayout : Layout.IsUsable layout.indent) {t : Table}
    (ht : t.HoldsIcons) : lines (t.renderBody layout) = [] :: bodyLines layout t := by
  have hlines : ∀ l ∈ [] :: bodyLines layout t, IsLine l :=
    List.forall_mem_cons.2 ⟨isLine_nil, fun l hl => (isPlain_of_mem_bodyLines hlayout ht l hl).line⟩
  have h := Newline.lines_flatMap layout.newline hlines []
  rw [List.append_nil] at h
  rw [renderBody_eq_lines, h]
  simp [lines]

def trailing : Option Text → Text
  | none => []
  | some note => ' ' :: (commentMark ++ ' ' :: note)

def annotated (nl : Newline) (ls : List (Text × Option Text)) : Text :=
  ls.flatMap fun (l, note) => l ++ trailing note ++ nl.text

def AreComments (ls : List (Text × Option Text)) : Prop :=
  ∀ l note, (l, some note) ∈ ls → ∀ c ∈ note, isLineEnd c = false

/-- A comment behind a plain line hides what is in it from the search for headings. -/
theorem isSilent_annotated (nl : Newline) {ls : List (Text × Option Text)}
    (hls : ∀ l note, (l, note) ∈ ls → IsPlain l) (hnotes : AreComments ls) {t : Text}
    (ht : IsSilent header .start t) : IsSilent header .start (annotated nl ls ++ t) := by
  obtain ⟨w, hw, hfeed⟩ : ∃ w, nl.text = w ++ ['\n'] ∧ '\n' ∉ w := by
    cases nl with
    | lf => exact ⟨[], rfl, by simp⟩
    | crlf => exact ⟨['\r'], rfl, by decide⟩
  induction ls with
  | nil => exact ht
  | cons x ls ih =>
    obtain ⟨l, note⟩ := x
    have hl := hls l note List.mem_cons_self
    have hrest := ih (fun m n h => hls m n (.tail _ h)) fun m n h => hnotes m n (.tail _ h)
    cases note with
    | none =>
      have hfree : 'x' ∉ nl.text := not_mem_of_isGap nl.isGap_text (by decide)
      have hinert : IsInert header (l ++ nl.text) :=
        isInert_of_isQuiet (c := '\n') (hl.quiet _ hfree) (by simp [hw]) (by decide)
      have hstate : (l ++ nl.text).foldl LineState.step .start = .start := by
        rw [hw, ← List.append_assoc, foldl_step_newline]
      have hsilent := hinert.isSilent_append (s := .start) (hstate ▸ hrest)
      simpa [annotated, trailing] using hsilent
    | some note =>
      have hinert : IsInert header (l ++ [' ', '/', '/']) :=
        isInert_of_isQuiet (c := '/') (hl.quiet _ (by decide)) (by simp) (by decide)
      have hcommented : ((l ++ [' ', '/', '/']).foldl LineState.step .start).commented = true := by
        have hliteral := literal_foldl_step hl.line.1 .start
        rw [show LineState.start.literal = .outside from rfl, hl.closed] at hliteral
        have hspace : Literal.step .outside ' ' = .outside := by decide
        have hslash : Literal.step .outside '/' = .outside := by decide
        simp [LineState.step, hliteral, hspace, hslash]
      have hline : '\n' ∉ ' ' :: (note ++ w) := by
        have hnote : '\n' ∉ note := fun h =>
          absurd (hnotes l note List.mem_cons_self _ h) (by decide)
        simp [hnote, hfeed]
      have hsilent := hinert.isSilent_append (s := .start)
        (isSilent_of_commented hcommented hline hrest)
      simpa [annotated, trailing, commentMark, hw] using hsilent

theorem occurrences_annotated {head rest : Text} {t : Table} {header : Span}
    {ls : List (Text × Option Text)}
    (hheader : occurrences Table.header (head ++ t.renderBody layout ++ '\x7d' :: rest) = [header])
    (hstop : header.stop = head.length) (hlayout : Layout.IsUsable layout.indent)
    (ht : t.HoldsIcons) (hls : ls.map (·.1) = bodyLines layout t) (hcomments : AreComments ls) :
    occurrences Table.header (head ++ (layout.newline.text ++ annotated layout.newline ls) ++
      '\x7d' :: rest) = [header] := by
  rw [List.append_assoc] at hheader ⊢
  rw [occurrences_eq_singleton_iff header_endsAtBrace hheader hstop, List.append_assoc]
  obtain ⟨w, hw⟩ := Series.flatMap_newline_ends layout.newline [] (bodyLines layout t)
  have hbehind : IsSilent Table.header .start ('\x7d' :: rest) := by
    have h := ((occurrences_eq_singleton_iff header_endsAtBrace hheader hstop).1 hheader).of_append
    rwa [renderBody_eq_lines, hw, foldl_step_newline] at h
  have hplain : ∀ l note, (l, note) ∈ ls → IsPlain l := fun l note h =>
    isPlain_of_mem_bodyLines hlayout ht l (hls ▸ List.mem_map.2 ⟨_, h, rfl⟩)
  obtain ⟨v, hv⟩ := layout.newline.text_ends
  have hfree : 'x' ∉ layout.newline.text := not_mem_of_isGap layout.newline.isGap_text (by decide)
  have hinert : IsInert Table.header layout.newline.text :=
    isInert_of_isQuiet (c := '\n') (isQuiet_of_not_mem hfree) (by simp [hv]) (by decide)
  have hrest := isSilent_annotated layout.newline hplain hcomments hbehind
  refine hinert.isSilent_append ?_
  rwa [hv, foldl_step_newline]

end IconCatalog.Table
