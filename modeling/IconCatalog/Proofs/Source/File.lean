import IconCatalog.Proofs.Source.Series
/-!
Files with one declaration, of any kind. Reading cuts such a file around the body of the declaration
and tells its items; printing puts a series of items between the same texts. What is printed is read
back if the new body brings no other header with it, and one item more changes neither this nor the
line ends.
-/
namespace IconCatalog.Source
open Text
variable {α β : Type}

/-- A kind of file. Its items are read in any spelling, and printed in one of them as a series in
the layout of the file. -/
structure FileKind (α β : Type) where
  declaration : Declaration β
  IsItem : Text → β → Prop
  IsHeading : Text → Prop
  reads : declaration.item.Reads IsItem
  endsAtBrace : declaration.header.EndsAtBrace IsHeading
  isEntry : Text → Bool
  series : Layout → Series α
  style : ∀ layout, (series layout).style = layout
  isTidy : ∀ {layout}, Layout.IsUsable layout.indent → (series layout).IsTidy
  inert_between : ∀ {layout}, Layout.IsUsable layout.indent → ∀ prev next,
    IsInert declaration.header ((series layout).between prev next)
  no_return_between : ∀ {layout}, Layout.IsUsable layout.indent → layout.newline = .lf →
    ∀ prev next, '\r' ∉ (series layout).between prev next
  value : α → β
  /-- Items that are read back from what is printed of them. -/
  IsPrintable : α → Prop
  reads_series : ∀ {layout} {a}, Layout.IsUsable layout.indent → IsPrintable a →
    (series layout).Reads IsItem value a
  /-- Items that give the layout back. -/
  IsLined : α → Prop
  lined : ∀ {a}, IsPrintable a → IsLined a
  detect : ∀ {layout} {as} (source), Layout.IsUsable layout.indent → (∀ a ∈ as, IsLined a) →
    Layout.detect source ((series layout).print as) isEntry = ⟨layout.indent, .detect source⟩

namespace FileKind
variable {K : FileKind α β} {head body tail : Text} {items : List β} {layout : Layout}
  {as bs : List α} {a : α}

/-- A text in which the declaration stands once, cut around its body. -/
structure IsFile (K : FileKind α β) (head body tail : Text) (items : List β) : Prop where
  header : ∃ span, occurrences K.declaration.header (head ++ (body ++ tail)) = [span] ∧
    span.stop = head.length
  brace : ∃ rest, tail = '\x7d' :: rest
  isBody : IsBody K.IsItem tail body items

theorem find_eq_ok_iff {source : Text} {found : Found β} :
    K.declaration.find source = .ok found ↔
      source = found.head ++ (found.body ++ found.tail) ∧
        K.IsFile found.head found.body found.tail found.items := by
  constructor
  · intro h
    obtain ⟨span, rest, hheader, htail, hhead, hdrop, hbody⟩ := Declaration.exists_of_find K.reads h
    rw [← htail] at hdrop hbody
    obtain ⟨hsource, hstop⟩ := append_of_occurrences K.endsAtBrace hheader hhead hdrop
    exact ⟨hsource, ⟨span, hsource ▸ hheader, hstop⟩, ⟨rest, htail⟩, hbody⟩
  · rintro ⟨rfl, ⟨span, hheader, hstop⟩, ⟨rest, htail⟩, hbody⟩
    refine (Declaration.find_eq_ok_iff K.reads hheader).2 ⟨rest, htail, ?_, ?_, hbody⟩
    · rw [hstop, List.take_left]
    · rw [hstop, List.drop_left]

/-- What reading tells of a file of the kind: the texts around the body, the items, and the layout
that the body shows. -/
def IsRead (K : FileKind α β) (source head tail : Text) (layout : Layout) (items : List β) : Prop :=
  ∃ body, source = head ++ (body ++ tail) ∧ K.IsFile head body tail items ∧
    layout = .detect source body K.isEntry

theorem isRead_iff {source : Text} : K.IsRead source head tail layout items ↔
    ∃ body, K.declaration.find source = .ok ⟨head, body, tail, items⟩ ∧
      layout = .detect source body K.isEntry := by
  simp only [IsRead, find_eq_ok_iff, and_assoc]

theorem isRead_print {span : Span} {rest : Text} (hlayout : Layout.IsUsable layout.indent)
    (has : ∀ a ∈ as, K.IsPrintable a) (htail : tail = '\x7d' :: rest)
    (hheader : occurrences K.declaration.header (head ++ ((K.series layout).print as ++ tail)) =
      [span])
    (hstop : span.stop = head.length) {newline : Newline}
    (hnewline : .detect (head ++ ((K.series layout).print as ++ tail)) = newline) :
    K.IsRead (head ++ ((K.series layout).print as ++ tail)) head tail ⟨layout.indent, newline⟩
      (as.map K.value) := by
  subst hnewline
  have hbody : IsBody K.IsItem tail ((K.series layout).print as) (as.map K.value) :=
    Series.isBody_print (K.isTidy hlayout) fun a ha => K.reads_series hlayout (has a ha)
  refine ⟨_, rfl, ⟨⟨span, hheader, hstop⟩, ⟨rest, htail⟩, hbody⟩, ?_⟩
  exact (K.detect _ hlayout fun a ha => K.lined (has a ha)).symm

theorem isFeedText_print (hlayout : Layout.IsUsable layout.indent) (hlf : layout.newline = .lf)
    (has : ∀ a ∈ as, IsFeedText ((K.series layout).item a)) :
    IsFeedText ((K.series layout).print as) := by
  have hindent : '\r' ∉ layout.indent := hlayout.not_mem (by decide) (by decide)
  exact Series.isFeedText_print (K.no_return_between hlayout hlf) (by rwa [K.style]) has

/-- An item that is read back and brings neither a header nor other line ends with it, wherever it
is put. -/
structure IsTame (K : FileKind α β) (layout : Layout) (a : α) : Prop where
  printable : K.IsPrintable a
  inert : ∀ next, IsInert K.declaration.header
    (layout.indent ++ (K.series layout).item a ++ (K.series layout).between (some a) next)
  barrier : ∀ prev next u rest, '\x7b' ∉ u →
    K.declaration.header (u ++ ((K.series layout).insertion prev a next ++ rest)) = none
  no_return : layout.newline = .lf → '\r' ∉ (K.series layout).item a

theorem IsTame.isInert_insertion (ha : K.IsTame layout a) (hlayout : Layout.IsUsable layout.indent)
    (prev next : Option α) :
    IsInert K.declaration.header ((K.series layout).insertion prev a next) := by
  rw [Series.insertion, List.append_assoc, K.style]
  exact (K.inert_between hlayout prev _).append (ha.inert next)

theorem IsTame.no_return_insertion (ha : K.IsTame layout a)
    (hlayout : Layout.IsUsable layout.indent) (hlf : layout.newline = .lf) (prev next : Option α) :
    '\r' ∉ (K.series layout).insertion prev a next := by
  have hindent : '\r' ∉ layout.indent := hlayout.not_mem (by decide) (by decide)
  have hbetween := K.no_return_between hlayout hlf
  simp [Series.insertion, K.style, hindent, ha.no_return hlf, hbetween]

/-- Behind a front with the only header, tame items are read in every number. -/
theorem isRead_tame {span : Span} {rest : Text} (hlayout : Layout.IsUsable layout.indent)
    (hlf : layout.newline = .lf) (has : ∀ a ∈ as, K.IsTame layout a) (htail : tail = '\x7d' :: rest)
    (hinert : IsInert K.declaration.header tail)
    (hheader : ∀ t, IsInert K.declaration.header t →
      occurrences K.declaration.header (head ++ t) = [span])
    (hstop : span.stop = head.length) (hreturn : '\r' ∉ head ++ tail) :
    K.IsRead (head ++ ((K.series layout).print as ++ tail)) head tail layout (as.map K.value) := by
  have hprint : IsInert K.declaration.header ((K.series layout).print as) :=
    Series.isInert_print (K.inert_between hlayout) fun a ha next => by
      rw [K.style]
      exact (has a ha).inert next
  have hindent : '\r' ∉ (K.series layout).style.indent := by
    rw [K.style]
    exact hlayout.not_mem (by decide) (by decide)
  have hfree : '\r' ∉ (K.series layout).print as :=
    Series.not_mem_print (K.no_return_between hlayout hlf) hindent fun a ha =>
      (has a ha).no_return hlf
  have hnewline : .detect (head ++ ((K.series layout).print as ++ tail)) = layout.newline := by
    rw [hlf]
    refine Newline.detect_eq_lf_iff.2 fun hpair => ?_
    have hmem : '\r' ∈ head ++ ((K.series layout).print as ++ tail) := hpair.subset (by simp)
    simp only [List.mem_append, not_or] at hmem hreturn
    exact hmem.elim hreturn.1 fun h => h.elim hfree hreturn.2
  exact isRead_print hlayout (fun a ha => (has a ha).printable) htail
    (hheader _ (hprint.append hinert)) hstop hnewline

namespace IsRead
variable {source : Text} (h : K.IsRead source head tail layout items)
include h

theorem isUsable : Layout.IsUsable layout.indent := by
  obtain ⟨body, -, -, rfl⟩ := h
  exact Layout.isUsable_detect source body K.isEntry

theorem newline : layout.newline = .detect source := by
  obtain ⟨body, -, -, rfl⟩ := h
  exact Layout.newline_detect ..

theorem exists_rest : ∃ rest, tail = '\x7d' :: rest := by
  obtain ⟨body, -, hfile, -⟩ := h
  exact hfile.brace

theorem length_source : (occurrences K.declaration.header source).length = 1 := by
  obtain ⟨body, rfl, hfile, -⟩ := h
  obtain ⟨span, hheader, -⟩ := hfile.header
  rw [hheader]
  rfl

/-- Whatever stands behind the header, it is found first. -/
theorem exists_span : ∃ span : Span, span.stop = head.length ∧
    ∀ t, occurrences K.declaration.header (head ++ t) =
      span :: occurrencesFrom K.declaration.header (head.foldl LineState.step .start) head.length
        head.length t := by
  obtain ⟨body, -, hfile, -⟩ := h
  obtain ⟨span, hheader, hstop⟩ := hfile.header
  exact ⟨span, hstop, occurrences_append K.endsAtBrace hheader hstop⟩

theorem length_eq_one_iff {t : Text} :
    (occurrences K.declaration.header (head ++ t)).length = 1 ↔
      IsSilent K.declaration.header (head.foldl LineState.step .start) t := by
  obtain ⟨span, -, hspan⟩ := h.exists_span
  rw [hspan, List.length_cons, Nat.add_eq_right, List.length_eq_zero_iff,
    occurrencesFrom_eq_nil_iff (Nat.le_refl _)]

theorem exists_header {t : Text}
    (hone : (occurrences K.declaration.header (head ++ t)).length = 1) :
    ∃ span, occurrences K.declaration.header (head ++ t) = [span] ∧ span.stop = head.length := by
  obtain ⟨span, hstop, hspan⟩ := h.exists_span
  rw [hspan, List.length_cons, Nat.add_eq_right, List.length_eq_zero_iff] at hone
  exact ⟨span, by rw [hspan, hone], hstop⟩

theorem reread {t head' tail' : Text} {layout' : Layout} {items' : List β}
    (h' : K.IsRead (head ++ t) head' tail' layout' items') :
    ∃ body rest, t = body ++ tail' ∧ tail' = '\x7d' :: rest ∧ IsBody K.IsItem tail' body items' ∧
      IsSilent K.declaration.header (head.foldl LineState.step .start) t := by
  have hsilent := h.length_eq_one_iff.1 h'.length_source
  obtain ⟨span, hstop, hspan⟩ := h.exists_span
  obtain ⟨body, hsource, hfile, -⟩ := h'
  obtain ⟨span', hheader, hstop'⟩ := hfile.header
  obtain ⟨rest, htail⟩ := hfile.brace
  rw [← hsource, hspan] at hheader
  obtain ⟨rfl, -⟩ := List.cons.inj hheader
  obtain ⟨rfl, hbody⟩ := List.append_inj hsource (hstop.symm.trans hstop')
  exact ⟨body, rest, hbody, htail, hfile.isBody, hsilent⟩

theorem exists_item : ∀ item ∈ items, ∃ u, u <:+: source ∧ K.IsItem u item := by
  obtain ⟨body, rfl, hfile, -⟩ := h
  intro item hitem
  obtain ⟨u, hin, hu⟩ := hfile.isBody.exists_item item hitem
  exact ⟨u, hin.trans ⟨head, tail, List.append_assoc ..⟩, hu⟩

theorem print (has : ∀ a ∈ as, K.IsPrintable a)
    (hsilent : IsSilent K.declaration.header (head.foldl LineState.step .start)
      ((K.series layout).print as ++ tail)) :
    K.IsRead (head ++ ((K.series layout).print as ++ tail)) head tail
      ⟨layout.indent, .detect (head ++ ((K.series layout).print as ++ tail))⟩
      (as.map K.value) := by
  obtain ⟨rest, htail⟩ := h.exists_rest
  obtain ⟨span, hheader, hstop⟩ := h.exists_header (h.length_eq_one_iff.2 hsilent)
  exact isRead_print h.isUsable has htail hheader hstop rfl

theorem detect_print (has : ∀ a ∈ as, K.IsLined a)
    (hfeed : layout.newline = .lf → ∀ a ∈ as, IsFeedText ((K.series layout).item a)) :
    Layout.detect (head ++ ((K.series layout).print as ++ tail)) ((K.series layout).print as)
      K.isEntry = layout := by
  have husable := h.isUsable
  have hnewline := h.newline
  obtain ⟨body, rfl, hfile, -⟩ := h
  obtain ⟨span, hheader, hstop⟩ := hfile.header
  have hprint := Series.detect_print (s := K.series layout) K.endsAtBrace hheader hstop
    (by rwa [K.style]) fun hlf => by
      rw [K.style] at hlf
      exact isFeedText_print husable hlf (hfeed hlf)
  rw [K.detect _ husable has, hprint, K.style]

/-- One item more leaves a printed file as readable as it was, in the same layout. -/
theorem insert (hsource : source = head ++ ((K.series layout).print (as ++ bs) ++ tail))
    (hall : ∀ b ∈ as ++ a :: bs, K.IsPrintable b) (ha : K.IsTame layout a) :
    K.IsRead (head ++ ((K.series layout).print (as ++ a :: bs) ++ tail)) head tail layout
      ((as ++ a :: bs).map K.value) := by
  have hnewline := h.newline
  rw [hsource] at hnewline
  have hbefore := h.length_eq_one_iff.1 (hsource ▸ h.length_source)
  have hsilent := Series.isSilent_insert K.endsAtBrace (ha.isInert_insertion h.isUsable _ _)
    (fun u rest hu => ha.barrier _ _ u rest hu) hbefore
  have hdetect := Series.detect_insert (s := K.series layout) (by rwa [K.style])
    fun hlf => ha.no_return_insertion h.isUsable (by rwa [K.style] at hlf) _ _
  have hread := h.print hall hsilent
  rwa [hdetect, K.style] at hread

end IsRead
end FileKind
end IconCatalog.Source
