import IconCatalog.Proofs.Layout
import IconCatalog.Proofs.Source.Body
import IconCatalog.Proofs.Source.Occurrence
import IconCatalog.Proofs.Text.Search
/-!
Bodies as they are printed: a series of items, each on a line of its own behind an indent. Two items
are parted by a comma, a line end and further blank lines and comments. Such a body is read back
item by item, its layout is detected again, and a further item changes nothing but the text between
its neighbours.
-/
namespace IconCatalog.Source
open Text
variable {α β : Type}

/-- How items are printed: behind an indent, with the line end of the file, and with further lines
between them that may depend on the items before and after. -/
structure Series (α : Type) where
  style : Layout
  item : α → Text
  notes : Option α → Option α → List Text

namespace Series
variable (s : Series α)

/-- The end of the line of an item, or of the declaration, and the lines up to the next item. -/
def layout (prev next : Option α) : Text :=
  ([] :: s.notes prev next).flatMap (· ++ s.style.newline.text)

/-- What stands between two items, in front of the first one, or behind the last one. -/
def between : Option α → Option α → Text
  | some a, some b => ',' :: s.layout (some a) (some b)
  | none, b => s.layout none b
  | a, none => s.layout a none

def printFrom : Option α → List α → Text
  | prev, [] => s.between prev none
  | prev, a :: as =>
    s.between prev (some a) ++ (s.style.indent ++ s.item a) ++ printFrom (some a) as

def print (as : List α) : Text := s.printFrom none as

def firstItems : Option α → List α → Text
  | _, [] => []
  | prev, a :: as =>
    s.between prev (some a) ++ (s.style.indent ++ s.item a) ++ firstItems (some a) as

def lastItems : List α → Text
  | [] => []
  | a :: as => s.style.indent ++ s.item a ++ s.printFrom (some a) as

theorem printFrom_eq (prev : Option α) (as : List α) :
    s.printFrom prev as = s.between prev as.head? ++ s.lastItems as := by
  cases as with
  | nil => simp [printFrom, lastItems]
  | cons a as => simp [printFrom, lastItems]

theorem getLast?_cons_or (a : α) (as : List α) (prev : Option α) :
    (a :: as).getLast?.or prev = as.getLast?.or (some a) := by
  rw [List.getLast?_cons]
  cases as.getLast? <;> rfl

theorem printFrom_append (prev : Option α) (as bs : List α) :
    s.printFrom prev (as ++ bs) =
      s.firstItems prev as ++ s.between (as.getLast?.or prev) bs.head? ++ s.lastItems bs := by
  induction as generalizing prev with
  | nil => simp [firstItems, printFrom_eq]
  | cons a as ih =>
    rw [List.cons_append, printFrom, ih, firstItems, getLast?_cons_or]
    simp only [List.append_assoc]

theorem print_append (as bs : List α) :
    s.print (as ++ bs) =
      s.firstItems none as ++ (s.between as.getLast? bs.head? ++ s.lastItems bs) := by
  rw [print, printFrom_append, Option.or_none, List.append_assoc]

/-- An item and what parts it from its neighbours. -/
def insertion (prev : Option α) (a : α) (next : Option α) : Text :=
  s.between prev (some a) ++ (s.style.indent ++ s.item a) ++ s.between (some a) next

theorem print_insert (as bs : List α) (a : α) :
    s.print (as ++ a :: bs) =
      s.firstItems none as ++ (s.insertion as.getLast? a bs.head? ++ s.lastItems bs) := by
  rw [print_append, lastItems, printFrom_eq, insertion]
  simp only [List.head?_cons, List.append_assoc]

variable {s} {IsItem : Text → β → Prop} {value : α → β} {after : Text}

def IsNote (indent l : Text) : Prop :=
  l = [] ∨ ∃ note, l = indent ++ commentMark ++ note ∧ ∀ c ∈ note, isLineEnd c = false

/-- The style of a printed file, with nothing but blank lines and comments between its items. -/
structure IsTidy (s : Series α) : Prop where
  usable : Layout.IsUsable s.style.indent
  notes : ∀ prev next, ∀ l ∈ s.notes prev next, IsNote s.style.indent l

theorem IsTidy.isNote (hs : s.IsTidy) {prev next : Option α} {l : Text}
    (hl : l ∈ [] :: s.notes prev next) : IsNote s.style.indent l := by
  cases List.mem_cons.1 hl with
  | inl h =>
    subst h
    exact .inl rfl
  | inr hl => exact hs.notes prev next l hl

theorem atLineEnd_newline (nl : Newline) (t : Text) : atLineEnd (nl.text ++ t) = true := by
  cases nl <;> rfl

theorem isBody_newline (nl : Newline) : IsBody IsItem after nl.text [] :=
  isBody_of_isGap nl.isGap_text

theorem isBody_note {indent l : Text} (hindent : IsGap indent) (hl : IsNote indent l)
    (nl : Newline) :
    IsBody IsItem after (l ++ nl.text) [] := by
  rcases hl with rfl | ⟨note, rfl, hnote⟩
  · exact isBody_newline nl
  · rw [List.append_assoc, List.append_assoc]
    refine isBody_gap_append hindent ?_
    rw [← List.append_assoc]
    exact .comment hnote (atLineEnd_newline nl after) (isBody_newline nl)

theorem isBody_notes {indent : Text} (hindent : IsGap indent) {ls : List Text}
    (hls : ∀ l ∈ ls, IsNote indent l) (nl : Newline) :
    IsBody IsItem after (ls.flatMap (· ++ nl.text)) [] := by
  induction ls with
  | nil => exact .nil
  | cons l ls ih =>
    have hrest := ih fun m hm => hls m (.tail l hm)
    exact (isBody_note hindent (hls l List.mem_cons_self) nl).append hrest

theorem IsTidy.isBody_layout (hs : s.IsTidy) (prev next : Option α) :
    IsBody IsItem after (s.layout prev next) [] :=
  isBody_notes hs.usable.isGap (fun _ hl => hs.isNote hl) _

/-- An item is read with and without a comma behind it. -/
structure Reads (s : Series α) (IsItem : Text → β → Prop) (value : α → β) (a : α) : Prop where
  plain : IsItem (s.item a) (value a)
  comma : IsItem (s.item a ++ [',']) (value a)

theorem isBody_lastItems (hs : s.IsTidy) {as : List α} (has : ∀ a ∈ as, s.Reads IsItem value a) :
    IsBody IsItem after (s.lastItems as) (as.map value) := by
  induction as with
  | nil => exact .nil
  | cons a as ih =>
    have ha := has a List.mem_cons_self
    have hrest := ih fun b hb => has b (.tail a hb)
    have hitem : IsBody IsItem after (s.item a ++ s.printFrom (some a) as)
        (value a :: as.map value) := by
      rw [printFrom_eq]
      cases as with
      | nil => exact .item ha.plain ((hs.isBody_layout _ _).append hrest)
      | cons b as =>
        have hbody := IsBody.item ha.comma ((hs.isBody_layout (some a) (some b)).append hrest)
        simpa [between] using hbody
    rw [lastItems, List.append_assoc]
    exact isBody_gap_append hs.usable.isGap hitem

/-- A printed series is a body with the items that were printed. -/
theorem isBody_print (hs : s.IsTidy) {as : List α} (has : ∀ a ∈ as, s.Reads IsItem value a) :
    IsBody IsItem after (s.print as) (as.map value) := by
  have hlast : IsBody IsItem after (s.lastItems as) (as.map value) := isBody_lastItems hs has
  rw [print, printFrom_eq, between]
  exact (hs.isBody_layout _ _).append hlast

theorem isBody_firstItems (hs : s.IsTidy) {as : List α} (has : ∀ a ∈ as, s.Reads IsItem value a)
    (next : α) : IsBody IsItem after (s.firstItems none as ++ s.between as.getLast? (some next))
      (as.map value) := by
  -- behind an item, its comma is taken off first
  have hmore (a : α) {bs : List α} (hbs : ∀ b ∈ bs, s.Reads IsItem value b) :
      ∃ u, s.firstItems (some a) bs ++ s.between (bs.getLast?.or (some a)) (some next) = ',' :: u ∧
        IsBody IsItem after u (bs.map value) := by
    induction bs generalizing a with
    | nil => exact ⟨_, rfl, hs.isBody_layout _ _⟩
    | cons b bs ih =>
      obtain ⟨u, hu, hbody⟩ := ih b fun x hx => hbs x (.tail b hx)
      have hb := (hbs b List.mem_cons_self).comma
      have hitem := isBody_gap_append hs.usable.isGap (.item hb hbody)
      refine ⟨_, ?_, (hs.isBody_layout (some a) (some b)).append hitem⟩
      rw [getLast?_cons_or, firstItems, List.append_assoc, hu, between]
      simp
  cases as with
  | nil => exact hs.isBody_layout _ _
  | cons a as =>
    obtain ⟨u, hu, hbody⟩ := hmore a fun b hb => has b (.tail a hb)
    have ha := (has a List.mem_cons_self).comma
    have hitem := isBody_gap_append hs.usable.isGap (.item ha hbody)
    have hall := (hs.isBody_layout none (some a)).append hitem
    rw [← Option.or_none (o := (a :: as).getLast?), getLast?_cons_or, firstItems, List.append_assoc,
      hu, between]
    simpa using hall

variable {isEntry : Text → Bool}

theorem IsNote.trimStart {indent l : Text} (h : IsNote indent l)
    (hindent : Layout.IsUsable indent) :
    trimStart l = [] ∨ ∃ note, trimStart l = '/' :: note := by
  rcases h with rfl | ⟨note, rfl, -⟩
  · exact .inl rfl
  · refine .inr ⟨'/' :: note, ?_⟩
    rw [List.append_assoc]
    exact trimStart_append_cons hindent.isBlank (by decide) _

theorem IsNote.isLine {indent l : Text} (h : IsNote indent l) (hindent : Layout.IsUsable indent) :
    IsLine l := by
  rcases h with rfl | ⟨note, rfl, hnote⟩
  · exact isLine_nil
  · exact isLine_comment hindent.blank hnote

def PassesNotes (isEntry : Text → Bool) : Prop :=
  isEntry [] = false ∧ ∀ note, isEntry ('/' :: note) = false

theorem isEntry_of_isNote {indent l : Text} (hentry : PassesNotes isEntry)
    (h : IsNote indent l) (hindent : Layout.IsUsable indent) : isEntry (trimStart l) = false := by
  rcases h.trimStart hindent with h | ⟨note, h⟩
  · rw [h]
    exact hentry.1
  · rw [h]
    exact hentry.2 note

theorem detect_print_cons (hs : s.IsTidy) (hentry : PassesNotes isEntry) {source : Text} {a : α}
    {as : List α} {l t : Text} {c : Char}
    (hitem : s.item a ++ s.printFrom (some a) as = c :: l ++ s.style.newline.text ++ t)
    (hl : Layout.IsTextLine s.style.indent c l) (hfirst : isEntry (c :: l) = true) :
    Layout.detect source (s.print (a :: as)) isEntry = ⟨s.style.indent, .detect source⟩ := by
  have hlines : lines (s.print (a :: as)) =
      ([] :: s.notes none (some a)) ++ (s.style.indent ++ c :: l) :: lines t := by
    have hbefore : ∀ l ∈ [] :: s.notes none (some a), IsLine l :=
      fun l hl => (hs.isNote hl).isLine hs.usable
    have hprint : s.print (a :: as) = ([] :: s.notes none (some a)).flatMap
        (· ++ s.style.newline.text) ++ (s.style.indent ++ c :: l ++ s.style.newline.text ++ t) := by
      rw [print, printFrom, between, layout, List.append_assoc, List.append_assoc, hitem]
      simp only [List.append_assoc]
    rw [hprint, Newline.lines_flatMap _ hbefore, Newline.lines_append _ hl.line]
  refine Layout.detect_of_entry hlines (fun x hx => ?_) hl hfirst
  exact isEntry_of_isNote hentry (hs.isNote hx) hs.usable

theorem detect_print_nil (hs : s.IsTidy) (hentry : PassesNotes isEntry) {source note : Text}
    {more : List Text}
    (hnotes : s.notes none none = (s.style.indent ++ commentMark ++ note) :: more) :
    Layout.detect source (s.print []) isEntry = ⟨s.style.indent, .detect source⟩ := by
  have hbefore : ∀ l ∈ [] :: s.notes none none, IsLine l :=
    fun l hl => (hs.isNote hl).isLine hs.usable
  have hlines : lines (s.print []) = [[]] ++ (s.style.indent ++ '/' :: '/' :: note) :: more := by
    have h := Newline.lines_flatMap s.style.newline hbefore []
    rw [List.append_nil] at h
    rw [print, printFrom, between, layout, h, hnotes]
    simp [commentMark, lines]
  have hmem : s.style.indent ++ '/' :: '/' :: note ∈ s.notes none none := by
    rw [hnotes]
    simp [commentMark]
  have hline := (hs.notes none none _ hmem).isLine hs.usable
  refine Layout.detect_of_comment hlines (fun x hx => by simpa using hx)
    ⟨hs.usable, by decide, hline⟩ (fun x hx => ?_) rfl
  have hmem : x ∈ [] :: s.notes none none := by
    rw [hlines] at hx
    rw [hnotes]
    simpa [commentMark] using hx
  exact isEntry_of_isNote hentry (hs.isNote hmem) hs.usable

theorem not_mem_between {x : Char} (hnl : x ∉ s.style.newline.text) (hcomma : x ≠ ',')
    (hnotes : ∀ prev next, ∀ l ∈ s.notes prev next, x ∉ l) (prev next : Option α) :
    x ∉ s.between prev next := by
  have hlayout : x ∉ s.layout prev next := by
    simp only [layout, List.mem_flatMap, List.mem_append, not_exists, not_and, not_or]
    intro l hl
    refine ⟨?_, hnl⟩
    cases List.mem_cons.1 hl with
    | inl h =>
      subst h
      simp
    | inr hl => exact hnotes prev next l hl
  cases prev with
  | none => exact hlayout
  | some a =>
    cases next with
    | none => exact hlayout
    | some b =>
      rw [between, List.mem_cons, not_or]
      exact ⟨hcomma, hlayout⟩

theorem count_print {x : Char} (hbetween : ∀ prev next, x ∉ s.between prev next)
    (hindent : x ∉ s.style.indent) (as : List α) :
    (s.print as).count x = (as.flatMap s.item).count x := by
  have hlast (as : List α) : (s.lastItems as).count x = (as.flatMap s.item).count x := by
    induction as with
    | nil => rfl
    | cons a as ih =>
      rw [lastItems, printFrom_eq, List.flatMap_cons, List.count_append, List.count_append,
        List.count_append, List.count_append, ih, List.count_eq_zero.2 hindent,
        List.count_eq_zero.2 (hbetween _ _)]
      omega
  rw [print, printFrom_eq, List.count_append, hlast, List.count_eq_zero.2 (hbetween _ _)]
  omega

theorem not_mem_print {x : Char} (hbetween : ∀ prev next, x ∉ s.between prev next)
    (hindent : x ∉ s.style.indent) {as : List α} (has : ∀ a ∈ as, x ∉ s.item a) :
    x ∉ s.print as := by
  rw [← List.count_eq_zero, count_print hbetween hindent, List.count_eq_zero, List.mem_flatMap]
  exact fun ⟨a, ha, hx⟩ => has a ha hx

theorem isFeedText_print (hbetween : ∀ prev next, '\r' ∉ s.between prev next)
    (hindent : '\r' ∉ s.style.indent) {as : List α} (has : ∀ a ∈ as, IsFeedText (s.item a)) :
    IsFeedText (s.print as) := by
  have hlast (as : List α) (has : ∀ a ∈ as, IsFeedText (s.item a)) :
      IsFeedText (s.lastItems as) := by
    induction as with
    | nil => exact isFeedText_of_not_mem (by simp [lastItems])
    | cons a as ih =>
      have hitem := (isFeedText_of_not_mem hindent).append (has a List.mem_cons_self)
      have hrest := (isFeedText_of_not_mem (hbetween (some a) as.head?)).append
        (ih fun b hb => has b (.tail a hb))
      rw [lastItems, printFrom_eq]
      exact hitem.append hrest
  rw [print, printFrom_eq]
  exact (isFeedText_of_not_mem (hbetween none as.head?)).append (hlast as has)

variable {p : Pattern} {IsHeading : Text → Prop}

theorem flatMap_newline_ends (nl : Newline) (l : Text) (ls : List Text) :
    ∃ w, (l :: ls).flatMap (· ++ nl.text) = w ++ ['\n'] := by
  induction ls generalizing l with
  | nil =>
    obtain ⟨w, hw⟩ := nl.text_ends
    exact ⟨l ++ w, by simp [hw]⟩
  | cons m ls ih =>
    obtain ⟨w, hw⟩ := ih m
    exact ⟨l ++ nl.text ++ w, by rw [List.flatMap_cons, hw]; simp⟩

theorem exists_between (s : Series α) (prev next : Option α) :
    ∃ w, s.between prev next = w ++ ['\n'] := by
  obtain ⟨w, hw⟩ := flatMap_newline_ends s.style.newline [] (s.notes prev next)
  cases prev with
  | none => exact ⟨w, hw⟩
  | some a =>
    cases next with
    | none => exact ⟨w, hw⟩
    | some b => exact ⟨',' :: w, by rw [between, layout, hw]; rfl⟩

theorem isInert_print (hbetween : ∀ prev next, IsInert p (s.between prev next)) {as : List α}
    (has : ∀ a ∈ as, ∀ next,
      IsInert p (s.style.indent ++ s.item a ++ s.between (some a) next)) :
    IsInert p (s.print as) := by
  have hlast : IsInert p (s.lastItems as) := by
    induction as with
    | nil => exact isInert_nil
    | cons a as ih =>
      have hrest := ih fun b hb => has b (.tail a hb)
      rw [lastItems, printFrom_eq, ← List.append_assoc]
      exact (has a List.mem_cons_self _).append hrest
  rw [print, printFrom_eq]
  exact (hbetween _ _).append hlast

/-- Where a further item brings no heading with it, a silent series stays silent. -/
theorem isSilent_insert (hp : p.EndsAtBrace IsHeading) {state : LineState}
    {as bs : List α} {a : α} {tail : Text}
    (hinert : IsInert p (s.insertion as.getLast? a bs.head?))
    (hbarrier : ∀ u rest, '\x7b' ∉ u → p (u ++ (s.insertion as.getLast? a bs.head? ++ rest)) = none)
    (h : IsSilent p state (s.print (as ++ bs) ++ tail)) :
    IsSilent p state (s.print (as ++ a :: bs) ++ tail) := by
  obtain ⟨w, hw⟩ := s.exists_between as.getLast? bs.head?
  obtain ⟨v, hv⟩ := s.exists_between (some a) bs.head?
  rw [print_insert, List.append_assoc, List.append_assoc]
  rw [print_append, List.append_assoc, List.append_assoc] at h
  refine h.replace hp hinert (fun u hu => hbarrier u _ hu) ?_
  rw [insertion, hw, hv, ← List.append_assoc, ← List.append_assoc, foldl_step_newline]
  rw [← List.append_assoc, foldl_step_newline]

theorem exists_print (s : Series α) (as : List α) :
    ∃ t, s.print as = s.style.newline.text ++ t := by
  rw [print, printFrom_eq, between, layout, List.flatMap_cons, List.nil_append, List.append_assoc]
  exact ⟨_, rfl⟩

theorem detect_insert {head tail : Text} {as bs : List α} {a : α}
    (h : s.style.newline = .detect (head ++ (s.print (as ++ bs) ++ tail)))
    (hreturn : s.style.newline = .lf → '\r' ∉ s.insertion as.getLast? a bs.head?) :
    Newline.detect (head ++ (s.print (as ++ a :: bs) ++ tail)) = s.style.newline := by
  cases hn : s.style.newline with
  | crlf =>
    obtain ⟨t, ht⟩ := s.exists_print (as ++ a :: bs)
    rw [hn] at ht
    exact Newline.detect_eq_crlf_iff.2 ⟨head, t ++ tail, by rw [ht]; simp [Newline.text]⟩
  | lf =>
    have hfree := Newline.detect_eq_lf_iff.1 (h.symm.trans hn)
    rw [print_append, List.append_assoc, List.append_assoc, ← List.append_assoc] at hfree
    rw [Newline.detect_eq_lf_iff, print_insert, List.append_assoc, List.append_assoc,
      ← List.append_assoc]
    obtain ⟨w, hw⟩ := s.exists_between (some a) bs.head?
    refine not_pair_infix_replace hfree (hreturn hn) (by simp [insertion, hw]) fun hhead => ?_
    rw [insertion] at hhead
    cases hlast : as.getLast? with
    | none =>
      rw [between, layout, hn]
      rfl
    | some b =>
      rw [hlast] at hhead
      exact absurd hhead (by simp [between])

theorem detect_print (hp : p.EndsAtBrace IsHeading) {head body tail : Text} {header : Span}
    (hheader : occurrences p (head ++ (body ++ tail)) = [header])
    (hstop : header.stop = head.length)
    (h : s.style.newline = .detect (head ++ (body ++ tail))) {as : List α}
    (has : s.style.newline = .lf → IsFeedText (s.print as)) :
    Newline.detect (head ++ (s.print as ++ tail)) = s.style.newline := by
  cases hn : s.style.newline with
  | crlf =>
    obtain ⟨t, ht⟩ := s.exists_print as
    rw [hn] at ht
    exact Newline.detect_eq_crlf_iff.2 ⟨head, t ++ tail, by rw [ht]; simp [Newline.text]⟩
  | lf =>
    have hfree := Newline.detect_eq_lf_iff.1 (h.symm.trans hn)
    have hprint := has hn
    rw [pair_infix_append_iff, pair_infix_append_iff, not_or, not_or, not_or, not_or] at hfree
    rw [Newline.detect_eq_lf_iff]
    intro hpair
    rcases pair_infix_append_iff.1 hpair with hpair | hpair | ⟨hlast, -⟩
    · exact hfree.1 hpair
    · rcases pair_infix_append_iff.1 hpair with hpair | hpair | ⟨hlast, -⟩
      · exact hprint.pair hpair
      · exact hfree.2.1.2.1 hpair
      · exact hprint.last hlast
    · rw [getLast?_of_occurrences hp hheader hstop] at hlast
      exact absurd hlast (by decide)

end Series
end IconCatalog.Source
