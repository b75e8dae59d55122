import IconCatalog.Proofs.Enumeration.Grammar
import IconCatalog.Proofs.Layout
import IconCatalog.Proofs.Source.Place
import IconCatalog.Proofs.Table.Grammar
/-!
The indent that is detected in a body whose items all start a line of their own behind one indent.
The lines of items are told by their first characters, and not every spelling of a key that is read
counts: in a table no bare key does, and in an enumeration no name in single quotes. A body whose
items are all spelled in that way loses its indent, and so may one that starts with such items.
-/
namespace IconCatalog
open Text Source
variable {α : Type} {item : ItemReader α} {IsItem : Text → α → Prop} {starts : Char → Bool}

def StartsItem (starts : Char → Bool) (t : Text) : Prop :=
  ∃ c ∈ (trimStart t).head?, starts c = true

/-- A text goes on, behind a line end, with a line that reads like that of an item. -/
def Wraps (starts : Char → Bool) (t : Text) : Prop :=
  ∃ y, '\n' :: y <:+ t ∧ StartsItem starts y

theorem startsItem_iff {t : Text} :
    (trimStart t).head?.any starts = true ↔ StartsItem starts t := by
  simp [StartsItem, Option.any_eq_true]

theorem startsItem_cons {c : Char} (hc : isBlank c = false) {t : Text} :
    StartsItem starts (c :: t) ↔ starts c = true := by
  have h : trimStart (c :: t) = c :: t := trimStart_append_cons (w := []) (by simp) hc t
  simp [StartsItem, h]

theorem startsItem_blank_append {w : Text} (hw : ∀ c ∈ w, isBlank c = true) (t : Text) :
    StartsItem starts (w ++ t) ↔ StartsItem starts t := by
  rw [StartsItem, trimStart, List.dropWhile_append_of_pos hw]
  rfl

theorem startsItem_append {t : Text} (ht : isAllBlank t = false) (u : Text) :
    StartsItem starts (t ++ u) ↔ StartsItem starts t := by
  obtain ⟨w, c, r, hw, hc, rfl, -⟩ := exists_of_filled ht
  rw [List.append_assoc, startsItem_blank_append hw, startsItem_blank_append hw,
    List.cons_append, startsItem_cons hc, startsItem_cons hc]

theorem StartsItem.filled {t : Text} (h : StartsItem starts t) : isAllBlank t = false := by
  obtain ⟨c, hc, -⟩ := h
  cases hall : isAllBlank t with
  | false => rfl
  | true =>
    have hmem : c ∈ t := (List.dropWhile_suffix isBlank).subset (List.mem_of_head? hc)
    have hblank := (takeWhile_dropWhile_iff.1 ⟨rfl, rfl⟩).2.2 c hc
    rw [List.all_eq_true.1 hall c hmem] at hblank
    exact nomatch hblank

theorem StartsItem.append {t : Text} (h : StartsItem starts t) (u : Text) :
    StartsItem starts (t ++ u) := (startsItem_append h.filled u).2 h

theorem StartsItem.of_dropReturn {l : Text} (h : StartsItem starts (dropReturn l)) :
    StartsItem starts l := by
  unfold dropReturn at h
  split at h
  · next hlast =>
    obtain ⟨u, rfl⟩ := List.getLast?_eq_some_iff.1 hlast
    rw [List.dropLast_concat] at h
    exact h.append _
  · exact h

theorem startsItem_of_mem_lines {t l : Text} (hl : l ∈ lines t) (h : StartsItem starts l) :
    StartsItem starts t ∨ Wraps starts t := by
  induction hn : t.length using Nat.strongRecOn generalizing t with
  | ind n ih =>
    by_cases hmem : '\n' ∈ t
    · obtain ⟨first, u, rfl, hfirst⟩ := List.eq_append_cons_of_mem hmem
      rw [Text.lines_append hfirst] at hl
      cases hl with
      | head => exact .inl (h.of_dropReturn.append _)
      | tail _ hl =>
        have hlt : u.length < n := by simp at hn; omega
        refine .inr ?_
        rcases ih u.length hlt hl rfl with hu | ⟨y, hy, hyitem⟩
        · exact ⟨u, List.suffix_append first ('\n' :: u), hu⟩
        · exact ⟨y, hy.trans ((List.suffix_cons '\n' u).trans (List.suffix_append first _)), hyitem⟩
    · have hall : l = t := by
        have hl' : l ∈ [t].dropLast.map dropReturn ++ [t].getLast?.toList.filter (· ≠ []) := by
          rw [← List.splitOn_eq_singleton hmem]
          exact hl
        exact List.mem_singleton.1 (List.mem_filter.1 hl').1
      exact .inl (hall ▸ h)

theorem Wraps.of_append {t u : Text} (h : Wraps starts (t ++ u)) :
    Wraps starts u ∨ ∃ y, '\n' :: y <:+ t ∧ StartsItem starts (y ++ u) := by
  obtain ⟨y, ⟨x, hx⟩, hy⟩ := h
  rcases List.append_eq_append_iff.1 hx with ⟨d, rfl, hd⟩ | ⟨d, -, rfl⟩
  · cases d with
    | nil => exact .inl ⟨y, hd ▸ List.suffix_rfl, hy⟩
    | cons e d =>
      obtain ⟨rfl, rfl⟩ := List.cons.inj hd
      exact .inr ⟨d, List.suffix_append x _, hy⟩
  · exact .inl ⟨y, List.suffix_append d _, hy⟩

/-- A body without comments. Each of its items starts a line, behind the indent; their spellings are
told in order. -/
inductive IsIndented (IsItem : Text → α → Prop) (indent : Text) : Text → List Text → Prop where
  | nil {w : Text} (hw : IsGap w) : IsIndented IsItem indent w []
  | item {w s b : Text} {a : α} {ss : List Text} (hw : IsGap w) (hs : IsItem s a)
      (hb : IsIndented IsItem indent b ss) :
      IsIndented IsItem indent (w ++ '\n' :: (indent ++ (s ++ b))) (s :: ss)

theorem isBlank_of_startsKey {c : Char} (h : startsKey c = true) : isBlank c = false := by
  rcases startsKey_iff.1 h with rfl | rfl | h
  · decide
  · decide
  · exact isBlank_of_isNameChar h

theorem exists_first_line {indent : Text} (husable : Layout.IsUsable indent) {c : Char}
    (hc : isBlank c = false) (t : Text) :
    ∃ l rest, lines (indent ++ c :: t) = (indent ++ c :: l) :: rest := by
  have hreturn : c ≠ '\r' := by rintro rfl; exact absurd hc (by decide)
  have hfeed : '\n' ∉ indent ++ [c] := by
    rw [List.mem_append, List.mem_singleton, not_or]
    refine ⟨husable.not_mem (by decide) (by decide), ?_⟩
    rintro rfl
    exact absurd hc (by decide)
  have hline (f : Text) : ∃ l, dropReturn (indent ++ c :: f) = indent ++ c :: l := by
    cases f with
    | nil => exact ⟨[], by simp [dropReturn, hreturn]⟩
    | cons d f =>
      unfold dropReturn
      split
      · exact ⟨(d :: f).dropLast, by simp⟩
      · exact ⟨d :: f, rfl⟩
  by_cases hmem : '\n' ∈ t
  · obtain ⟨f, u, rfl, hf⟩ := List.eq_append_cons_of_mem hmem
    obtain ⟨l, hl⟩ := hline f
    have hfirst : '\n' ∉ indent ++ c :: f := by
      rw [show indent ++ c :: f = indent ++ [c] ++ f by simp, List.mem_append]
      exact not_or.2 ⟨hfeed, hf⟩
    have hlines := Text.lines_append hfirst u
    rw [hl, List.append_assoc, List.cons_append] at hlines
    exact ⟨l, lines u, hlines⟩
  · have hnone : '\n' ∉ indent ++ c :: t := by
      rw [show indent ++ c :: t = indent ++ [c] ++ t by simp, List.mem_append]
      exact not_or.2 ⟨hfeed, hmem⟩
    exact ⟨t, [], by simp [lines, List.splitOn_eq_singleton hnone]⟩

namespace IsIndented
variable {indent b : Text} {ss : List Text}

theorem append_gap {v : Text} (h : IsIndented IsItem indent b ss) (hv : IsGap v) :
    IsIndented IsItem indent (b ++ v) ss := by
  induction h with
  | nil hw => exact .nil (hw.append hv)
  | item hw hs _ ih =>
    simp only [List.append_assoc, List.cons_append]
    exact .item hw hs ih

theorem split {before after : List Text} {s : Text}
    (h : IsIndented IsItem indent b (before ++ s :: after)) :
    ∃ u v a, b = u ++ '\n' :: (indent ++ (s ++ v)) ∧ IsIndented IsItem indent u before ∧
      IsItem s a := by
  induction before generalizing b with
  | nil =>
    cases h with
    | item hw hs hb => exact ⟨_, _, _, rfl, .nil hw, hs⟩
  | cons s' before ih =>
    cases h with
    | @item w s' b a ss hw hs hb =>
      obtain ⟨u, v, a', rfl, hu, hs'⟩ := ih hb
      exact ⟨w ++ '\n' :: (indent ++ (s' ++ u)), v, a', by simp, .item hw hs hu, hs'⟩

section
variable (h : item.Reads IsItem) (husable : Layout.IsUsable indent)
include h

theorem filled {s : Text} {a : α} (hs : IsItem s a) : isAllBlank s = false := by
  obtain ⟨c, hc, hkey⟩ := h.start hs
  obtain ⟨r, rfl⟩ := List.head?_eq_some_iff.1 hc
  simp [isAllBlank, isBlank_of_startsKey hkey]

include husable

theorem startsItem (hb : IsIndented IsItem indent b ss) (hitem : StartsItem starts b) :
    ∃ s ∈ ss, StartsItem starts s := by
  cases hb with
  | nil hw =>
    have hall : isAllBlank b = true := List.all_eq_true.2 fun c hc => isBlank_of_isGap (hw c hc)
    rw [hitem.filled] at hall
    exact nomatch hall
  | @item w s b a ss hw hs hb =>
    have hfeed : ∀ c ∈ ['\n'], isBlank c = true := by simp; decide
    rw [startsItem_blank_append fun c hc => isBlank_of_isGap (hw c hc), ← List.singleton_append,
      startsItem_blank_append hfeed, startsItem_blank_append husable.isBlank,
      startsItem_append (filled h hs)] at hitem
    exact ⟨s, List.mem_cons_self, hitem⟩

theorem wraps (hb : IsIndented IsItem indent b ss) (hwraps : Wraps starts b) :
    ∃ s ∈ ss, StartsItem starts s ∨ Wraps starts s := by
  induction hb with
  | @nil w hw =>
    obtain ⟨y, hy, hitem⟩ := hwraps
    have hgap : IsGap y := fun c hc => hw c (hy.subset (.tail _ hc))
    have hnil : IsIndented IsItem indent y [] := .nil hgap
    obtain ⟨s, hs, -⟩ := startsItem h husable hnil hitem
    exact nomatch hs
  | @item w s b a ss hw hs hb ih =>
    rw [show w ++ '\n' :: (indent ++ (s ++ b)) = w ++ '\n' :: indent ++ (s ++ b) by simp] at hwraps
    rcases hwraps.of_append with hrest | ⟨y, hy, hitem⟩
    · rcases hrest.of_append with hrest | ⟨y, hy, hitem⟩
      · obtain ⟨s', hs', hfound⟩ := ih hrest
        exact ⟨s', .tail s hs', hfound⟩
      · cases hblank : isAllBlank y with
        | true =>
          rw [startsItem_blank_append (List.all_eq_true.1 hblank)] at hitem
          obtain ⟨s', hs', hfound⟩ := startsItem h husable hb hitem
          exact ⟨s', .tail s hs', .inl hfound⟩
        | false =>
          exact ⟨s, List.mem_cons_self, .inr ⟨y, hy, (startsItem_append hblank b).1 hitem⟩⟩
    · have hgap : IsGap (w ++ '\n' :: indent) :=
        hw.append (List.forall_mem_cons.2 ⟨by decide, husable.isGap⟩)
      have hblank : ∀ c ∈ y, isBlank c = true := fun c hc =>
        isBlank_of_isGap (hgap c (hy.subset (.tail _ hc)))
      rw [startsItem_blank_append hblank, startsItem_append (filled h hs)] at hitem
      exact ⟨s, List.mem_cons_self, .inl hitem⟩

theorem not_startsItem_of_mem_lines (hb : IsIndented IsItem indent b ss)
    (hss : ∀ s ∈ ss, ¬StartsItem starts s ∧ ¬Wraps starts s) {l : Text} (hl : l ∈ lines b) :
    (trimStart l).head?.any starts = false := by
  rw [Bool.eq_false_iff, Ne, startsItem_iff]
  intro hitem
  rcases startsItem_of_mem_lines hl hitem with hstart | hwraps
  · obtain ⟨s, hs, hfound⟩ := startsItem h husable hb hstart
    exact (hss s hs).1 hfound
  · obtain ⟨s, hs, hfound⟩ := wraps h husable hb hwraps
    exact hfound.elim (hss s hs).1 (hss s hs).2

theorem detect_of_first {source s : Text} {before after : List Text}
    (hb : IsIndented IsItem indent b (before ++ s :: after)) (hs : StartsItem starts s)
    (hbefore : ∀ s ∈ before, ¬StartsItem starts s ∧ ¬Wraps starts s) :
    Layout.detect source b (fun l => l.head?.any starts) = ⟨indent, .detect source⟩ := by
  obtain ⟨u, v, a, rfl, hu, hitem⟩ := hb.split
  obtain ⟨c, hc, hkey⟩ := h.start hitem
  obtain ⟨r, rfl⟩ := List.head?_eq_some_iff.1 hc
  have hfilled := isBlank_of_startsKey hkey
  obtain ⟨l, rest, hfirst⟩ := exists_first_line husable hfilled (r ++ v)
  have hends : EndsLine (u ++ ['\n']) := .inr (by simp)
  have hlines : lines (u ++ '\n' :: (indent ++ (c :: r ++ v))) =
      lines (u ++ ['\n']) ++ (indent ++ c :: l) :: rest := by
    rw [← hfirst, ← hends.lines_append]
    simp
  have hline : StartsItem starts (indent ++ c :: l) := by
    rw [startsItem_blank_append husable.isBlank, startsItem_cons hfilled]
    exact (startsItem_cons hfilled).1 hs
  have hindent : Layout.indentOf (indent ++ c :: l) = indent := husable.indentOf hfilled l
  have hahead : IsIndented IsItem indent (u ++ ['\n']) before :=
    hu.append_gap (by simp [IsGap, isGap])
  rw [Layout.detect_of_line hlines
    (fun x hx => not_startsItem_of_mem_lines h husable hahead hbefore hx) hline.filled
    (startsItem_iff.2 hline) (by rw [hindent]; exact husable.filled), hindent]

/-- The indent is that of an item that reads like one, unless an item in front of it goes on with a
line that does. -/
theorem detect_of_item {source s : Text} {before after : List Text}
    (hb : IsIndented IsItem indent b (before ++ s :: after)) (hs : StartsItem starts s)
    (hbefore : ∀ s ∈ before, ¬Wraps starts s) :
    Layout.detect source b (fun l => l.head?.any starts) = ⟨indent, .detect source⟩ := by
  have hsome : ((before ++ [s]).find? fun s => (trimStart s).head?.any starts).isSome :=
    List.find?_isSome.2 ⟨s, by simp, startsItem_iff.2 hs⟩
  obtain ⟨first, hfind⟩ := Option.isSome_iff_exists.1 hsome
  obtain ⟨hfirst, earlier, later, hsplit, hearlier⟩ := List.find?_eq_some_iff_append.1 hfind
  have hnot (x : Text) (hx : x ∈ earlier) : ¬StartsItem starts x := fun hitem => by
    have hxs := hearlier x hx
    rw [startsItem_iff.2 hitem] at hxs
    exact nomatch hxs
  have hss : before ++ s :: after = earlier ++ first :: (later ++ after) := by
    rw [List.append_cons, hsplit, List.append_assoc, List.cons_append]
  rw [hss] at hb
  refine detect_of_first h husable hb (startsItem_iff.1 hfirst) fun x hx => ⟨hnot x hx, ?_⟩
  have hmem : x ∈ before ++ [s] := hsplit ▸ List.mem_append_left _ hx
  rcases List.mem_append.1 hmem with hmem | hmem
  · exact hbefore x hmem
  · obtain rfl := List.mem_singleton.1 hmem
    exact absurd hs (hnot x hx)

end
end IsIndented

/-- What is detected in an indented body: an item that is told by its first character gives the
indent away, and without one the indent is passed over. -/
structure FindsIndent (starts : Char → Bool) (isPassedOver : Text → Prop) (source indent b : Text)
    (ss : List Text) (layout : Layout) : Prop where
  found : ∀ before s after, ss = before ++ s :: after → ¬isPassedOver s →
    (∀ s ∈ before, ¬Wraps starts s) → layout = ⟨indent, .detect source⟩
  found_iff : (∀ s ∈ ss, ¬Wraps starts s) →
    (∀ l ∈ lines b, startsWith (trimStart l) commentMark = false) →
      (layout.indent = indent ↔
        (∃ s ∈ ss, ¬isPassedOver s) ∨ indent = Layout.standard.indent)

theorem IsIndented.findsIndent {source indent b : Text} {ss : List Text}
    {isPassedOver : Text → Prop} (h : item.Reads IsItem) (husable : Layout.IsUsable indent)
    (hb : IsIndented IsItem indent b ss)
    (hpassed : ∀ s ∈ ss, StartsItem starts s ↔ ¬isPassedOver s) :
    FindsIndent starts isPassedOver source indent b ss
      (.detect source b fun l => l.head?.any starts) where
  found before s after hss hs hbefore := by
    subst hss
    exact detect_of_item h husable hb ((hpassed s (by simp)).2 hs) hbefore
  found_iff hwraps hcomment := by
    by_cases hseen : ∃ s ∈ ss, ¬isPassedOver s
    · obtain ⟨s, hs, hitem⟩ := hseen
      obtain ⟨before, after, rfl⟩ := List.append_of_mem hs
      rw [detect_of_item h husable hb ((hpassed s hs).2 hitem)
        fun s hs => hwraps s (List.mem_append_left _ hs)]
      exact iff_of_true rfl (.inl ⟨s, hs, hitem⟩)
    · have hnone : ∀ s ∈ ss, ¬StartsItem starts s ∧ ¬Wraps starts s := fun s hs =>
        ⟨fun hitem => hseen ⟨s, hs, (hpassed s hs).1 hitem⟩, hwraps s hs⟩
      rw [Layout.detect_of_none (fun l hl => not_startsItem_of_mem_lines h husable hb hnone hl)
        hcomment, or_iff_right hseen]
      exact eq_comm

def HasBareKey (s : Text) : Prop := ∃ c ∈ s.head?, isNameChar c = true

def HasSingleQuote (s : Text) : Prop := s.head? = some singleQuote

theorem hasBareKey_cons {c : Char} {r : Text} : HasBareKey (c :: r) ↔ isNameChar c = true := by
  simp [HasBareKey]

theorem hasSingleQuote_cons {c : Char} {r : Text} : HasSingleQuote (c :: r) ↔ c = singleQuote := by
  simp [HasSingleQuote]

theorem IsIndented.exists_start (h : item.Reads IsItem) {indent b : Text} {ss : List Text}
    (hb : IsIndented IsItem indent b ss) {s : Text} (hs : s ∈ ss) :
    ∃ c r, s = c :: r ∧ startsKey c = true := by
  obtain ⟨before, after, rfl⟩ := List.append_of_mem hs
  obtain ⟨u, v, a, -, -, hitem⟩ := hb.split
  obtain ⟨c, hc, hkey⟩ := h.start hitem
  obtain ⟨r, hr⟩ := List.head?_eq_some_iff.1 hc
  exact ⟨c, r, hr, hkey⟩

def startsEntryLine (c : Char) : Bool := c = doubleQuote || c = singleQuote

def startsMemberLine (c : Char) : Bool := isNameChar c || c = doubleQuote

theorem isEntryLine_eq : TableFile.isEntryLine = fun l => l.head?.any startsEntryLine := by
  funext l
  cases l <;> simp [TableFile.isEntryLine, startsEntryLine]

theorem isMemberLine_eq : EnumFile.isMemberLine = fun l => l.head?.any startsMemberLine := rfl

theorem startsEntryLine_iff {c : Char} {r : Text} (h : startsKey c = true) :
    StartsItem startsEntryLine (c :: r) ↔ ¬HasBareKey (c :: r) := by
  rw [startsItem_cons (isBlank_of_startsKey h), hasBareKey_cons]
  rcases startsKey_iff.1 h with rfl | rfl | hname
  · decide
  · decide
  · refine iff_of_false (fun hstarts => ?_) (not_not_intro hname)
    rcases (by simpa [startsEntryLine] using hstarts : c = doubleQuote ∨ c = singleQuote) with
      rfl | rfl <;> exact absurd hname (by decide)

theorem startsMemberLine_iff {c : Char} {r : Text} (h : startsKey c = true) :
    StartsItem startsMemberLine (c :: r) ↔ ¬HasSingleQuote (c :: r) := by
  rw [startsItem_cons (isBlank_of_startsKey h), hasSingleQuote_cons]
  rcases startsKey_iff.1 h with rfl | rfl | hname
  · decide
  · decide
  · refine iff_of_true (by simp [startsMemberLine, hname]) ?_
    rintro rfl
    exact absurd hname (by decide)

theorem body_unique {source head b b' tail rest : Text} {n : Nat}
    (hsource : source = head ++ b ++ tail) (hhead : head = source.take n)
    (htail : tail = '\x7d' :: rest) (hdrop : source.drop n = b' ++ '\x7d' :: rest) : b = b' := by
  have h : head ++ (b ++ tail) = head ++ (b' ++ tail) := by
    rw [htail, ← hdrop, hhead, List.take_append_drop, ← hhead, ← htail, ← List.append_assoc]
    exact hsource.symm
  exact List.append_cancel_right (List.append_cancel_left h)

/-- Of a body whose items all start a line of their own behind the same indent, the indent is found
by entries with a quoted key, and by members whose name is not in single quotes. -/
theorem indent_found_iff (indent : Text) (husable : Layout.IsUsable indent) :
    (∀ source f b ss, TableFile.read source = .ok f → source = f.head ++ b ++ f.tail →
      IsIndented Table.IsEntry indent b ss →
        FindsIndent startsEntryLine HasBareKey source indent b ss f.layout) ∧
    ∀ category source f b ss, EnumFile.read category source = .ok f →
      source = f.head ++ b ++ f.tail → IsIndented Enumeration.IsMember indent b ss →
        FindsIndent startsMemberLine HasSingleQuote source indent b ss f.layout := by
  constructor
  · intro source f b ss hread hsource hb
    obtain ⟨header, b', rest, es, hheader, hdrop, hbody, -, hhead, htail, hlayout⟩ :=
      TableFile.exists_body_of_read hread
    obtain rfl : b = b' := body_unique hsource hhead htail hdrop
    rw [hlayout, isEntryLine_eq]
    refine hb.findsIndent Table.entries_reads husable fun s hs => ?_
    obtain ⟨c, r, rfl, hkey⟩ := hb.exists_start Table.entries_reads hs
    exact startsEntryLine_iff hkey
  · intro category source f b ss hread hsource hb
    obtain ⟨header, b', rest, hheader, hdrop, hbody, -, hhead, htail, hlayout⟩ :=
      EnumFile.exists_body_of_read hread
    obtain rfl : b = b' := body_unique hsource hhead htail hdrop
    rw [hlayout, isMemberLine_eq]
    refine hb.findsIndent Enumeration.members_reads husable fun s hs => ?_
    obtain ⟨c, r, rfl, hkey⟩ := hb.exists_start Enumeration.members_reads hs
    exact startsMemberLine_iff hkey

theorem exists_read {ε β γ : Type} {e : Except ε γ} {g : γ → β} {x : β}
    (h : e.toOption.map g = some x) : ∃ f, e = .ok f ∧ g f = x := by
  obtain ⟨f, hf, hx⟩ := Option.map_eq_some_iff.1 h
  exact ⟨f, eq_ok_of_toOption hf, hx⟩

theorem isIndented_cons (h : item.Reads IsItem) {indent s b : Text} {ss : List Text} {a : α}
    (hread : item.read? s = some (a, [])) (hb : IsIndented IsItem indent b ss) :
    IsIndented IsItem indent ('\n' :: (indent ++ (s ++ b))) (s :: ss) := by
  obtain ⟨s', hs, hitem⟩ := h.sound hread
  rw [List.append_nil] at hs
  subst hs
  exact .item isGap_nil hitem hb

theorem isIndented_feed {indent : Text} : IsIndented IsItem indent ['\n'] [] :=
  .nil (by simp [IsGap, isGap])

/-- A table whose first key is bare, and an enumeration whose first name is in single quotes: the
second item gives the indent of four spaces away. -/
theorem indent_found_iff_mixed :
    let indent := "    ".toList
    let bare := "BTC: \x7b lightMode: baseImgUrlToken(1), darkMode: 2 \x7d,".toList
    let quoted := "'ETH': \x7b lightMode: baseImgUrlToken(3), darkMode: 4 \x7d".toList
    let body := '\n' :: (indent ++ (bare ++ '\n' :: (indent ++ (quoted ++ ['\n']))))
    let source := "export const iconMap = \x7b".toList ++ body ++ "\x7d;\n".toList
    let single := "'BTC' = 'BTC',".toList
    let name := "ETH = 'ETH'".toList
    let members := '\n' :: (indent ++ (single ++ '\n' :: (indent ++ (name ++ ['\n']))))
    let enumeration := "export enum TokenSymbol \x7b".toList ++ members ++ "\x7d\n".toList
    Layout.IsUsable indent ∧
    (∃ f, TableFile.read source = .ok f ∧ source = f.head ++ body ++ f.tail ∧
      IsIndented Table.IsEntry indent body [bare, quoted] ∧ f.layout = ⟨indent, .lf⟩) ∧
    ∃ f, EnumFile.read .token enumeration = .ok f ∧ enumeration = f.head ++ members ++ f.tail ∧
      IsIndented Enumeration.IsMember indent members [single, name] ∧
      f.layout = ⟨indent, .lf⟩ := by
  intro indent bare quoted body source single name members enumeration
  have husable : Layout.IsUsable indent := ⟨by decide, forall_of_all (by decide)⟩
  have hflat {s : Text} (hs : '\n' ∉ s) (starts : Char → Bool) : ∀ x ∈ [s], ¬Wraps starts x := by
    rintro x hx ⟨y, hy, -⟩
    obtain rfl := List.mem_singleton.1 hx
    exact hs (hy.subset List.mem_cons_self)
  have hfirst : Table.entries.read? bare =
      some (⟨"BTC".toList, "baseImgUrlToken(1)".toList, "2".toList⟩, []) := by decide +kernel
  have hsecond : Table.entries.read? quoted =
      some (⟨"ETH".toList, "baseImgUrlToken(3)".toList, "4".toList⟩, []) := by decide +kernel
  have hentries : IsIndented Table.IsEntry indent body [bare, quoted] :=
    isIndented_cons Table.entries_reads hfirst
      (isIndented_cons Table.entries_reads hsecond isIndented_feed)
  have hsingle : Enumeration.members.read? single = some ("BTC".toList, []) := by decide +kernel
  have hname : Enumeration.members.read? name = some ("ETH".toList, []) := by decide +kernel
  have hmembers : IsIndented Enumeration.IsMember indent members [single, name] :=
    isIndented_cons Enumeration.members_reads hsingle
      (isIndented_cons Enumeration.members_reads hname isIndented_feed)
  have htable : (TableFile.read source).toOption.map (fun f => (f.head, f.tail)) =
      some ("export const iconMap = \x7b".toList, "\x7d;\n".toList) := by decide +kernel
  have henum : (EnumFile.read .token enumeration).toOption.map (fun f => (f.head, f.tail)) =
      some ("export enum TokenSymbol \x7b".toList, "\x7d\n".toList) := by decide +kernel
  obtain ⟨f, hf, hparts⟩ := exists_read htable
  obtain ⟨g, hg, hgparts⟩ := exists_read henum
  have hsource : source = f.head ++ body ++ f.tail := by
    rw [(Prod.mk.inj hparts).1, (Prod.mk.inj hparts).2]
  have henumeration : enumeration = g.head ++ members ++ g.tail := by
    rw [(Prod.mk.inj hgparts).1, (Prod.mk.inj hgparts).2]
  refine ⟨husable, ⟨f, hf, hsource, hentries, ?_⟩, g, hg, henumeration, hmembers, ?_⟩
  · have hseen : ¬HasBareKey quoted := fun h => absurd (hasBareKey_cons.1 h) (by decide)
    exact ((indent_found_iff indent husable).1 source f body _ hf hsource hentries).found
      [bare] quoted [] rfl hseen (hflat (by decide) _)
  · have hseen : ¬HasSingleQuote name := fun h => absurd (hasSingleQuote_cons.1 h) (by decide)
    exact ((indent_found_iff indent husable).2 .token enumeration g members _ hg henumeration
      hmembers).found [single] name [] rfl hseen (hflat (by decide) _)

/-- A table of a bare key and an enumeration of a name in single quotes, both of which are printed
anew with the standard indent. -/
theorem indent_passed_over :
    let indent := "    ".toList
    let bare := "BTC: \x7b lightMode: baseImgUrlToken(1), darkMode: 2 \x7d".toList
    let body := '\n' :: (indent ++ (bare ++ ['\n']))
    let source := "export const iconMap = \x7b".toList ++ body ++ "\x7d;\n".toList
    let single := "'BTC' = 'BTC'".toList
    let members := '\n' :: (indent ++ (single ++ ['\n']))
    let enumeration := "export enum TokenSymbol \x7b".toList ++ members ++ "\x7d\n".toList
    Layout.IsUsable indent ∧
    (∃ f, TableFile.read source = .ok f ∧ source = f.head ++ body ++ f.tail ∧
      IsIndented Table.IsEntry indent body [bare] ∧ f.layout = ⟨"  ".toList, .lf⟩) ∧
    ∃ f, EnumFile.read .token enumeration = .ok f ∧ enumeration = f.head ++ members ++ f.tail ∧
      IsIndented Enumeration.IsMember indent members [single] ∧
      f.layout = ⟨"  ".toList, .lf⟩ := by
  intro indent bare body source single members enumeration
  have husable : Layout.IsUsable indent := ⟨by decide, forall_of_all (by decide)⟩
  have hentry : Table.entries.read? bare =
      some (⟨"BTC".toList, "baseImgUrlToken(1)".toList, "2".toList⟩, []) := by decide +kernel
  have hmember : Enumeration.members.read? single = some ("BTC".toList, []) := by decide +kernel
  have htable : (TableFile.read source).toOption.map (fun f => (f.head, f.tail, f.layout)) =
      some ("export const iconMap = \x7b".toList, "\x7d;\n".toList, ⟨"  ".toList, .lf⟩) := by
    decide +kernel
  have henum : (EnumFile.read .token enumeration).toOption.map
      (fun f => (f.head, f.tail, f.layout)) =
      some ("export enum TokenSymbol \x7b".toList, "\x7d\n".toList, ⟨"  ".toList, .lf⟩) := by
    decide +kernel
  obtain ⟨f, hf, hparts⟩ := exists_read htable
  obtain ⟨g, hg, hgparts⟩ := exists_read henum
  simp only [Prod.mk.injEq] at hparts hgparts
  refine ⟨husable, ⟨f, hf, ?_, isIndented_cons Table.entries_reads hentry isIndented_feed,
    hparts.2.2⟩, g, hg, ?_, isIndented_cons Enumeration.members_reads hmember isIndented_feed,
    hgparts.2.2⟩
  · rw [hparts.1, hparts.2.1]
  · rw [hgparts.1, hgparts.2.1]

end IconCatalog
