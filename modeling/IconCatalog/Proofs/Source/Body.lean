import IconCatalog.Proofs.Source.Token
import IconCatalog.Source.Declaration
/-!
The bodies that a declaration may have, told as a grammar over its items: layout, comments and items
in any order. Reading a body accepts exactly this grammar, in one way only, and so does finding a
declaration in a source text.
-/
namespace IconCatalog.Source
open Text
variable {α : Type}

/-- A body in front of the text `after`, with its items in order. A comment ends with its line, so
it matters what follows it. -/
inductive IsBody (IsItem : Text → α → Prop) (after : Text) : Text → List α → Prop where
  | nil : IsBody IsItem after [] []
  | gap : isGap c = true → IsBody IsItem after b as → IsBody IsItem after (c :: b) as
  | comment : (∀ c ∈ note, isLineEnd c = false) → atLineEnd (b ++ after) = true →
      IsBody IsItem after b as → IsBody IsItem after (commentMark ++ note ++ b) as
  | item : IsItem s a → IsBody IsItem after b as → IsBody IsItem after (s ++ b) (a :: as)

def startsKey (c : Char) : Bool := c = doubleQuote || c = singleQuote || isNameChar c

/-- A reader that takes off exactly the items of a grammar. Where a comma may close an item but does
not, no comma may follow it. -/
structure ItemReader.Reads (item : ItemReader α) (IsItem : Text → α → Prop) : Prop where
  sound : ∀ {t a r}, item.read? t = some (a, r) → ∃ s, t = s ++ r ∧ IsItem s a
  complete : ∀ {s a rest}, IsItem s a → char? ',' (skipGap rest) = none →
    item.read? (s ++ rest) = some (a, rest)
  start : ∀ {s a}, IsItem s a → ∃ c ∈ s.head?, startsKey c = true

theorem startsKey_iff {c : Char} :
    startsKey c = true ↔ c = doubleQuote ∨ c = singleQuote ∨ isNameChar c = true := by
  simp [startsKey, or_assoc]

theorem IsKey.start {s k : Text} (h : IsKey s k) : ∃ c ∈ s.head?, startsKey c = true := by
  cases h with
  | @quoted q k hq _ => exact ⟨q, rfl, startsKey_iff.2 (hq.imp id .inl)⟩
  | bare hne hk =>
    obtain ⟨c, k, rfl⟩ := List.exists_cons_of_ne_nil hne
    exact ⟨c, rfl, startsKey_iff.2 (.inr (.inr (hk c List.mem_cons_self)))⟩

theorem isGap_of_startsKey {c : Char} (h : startsKey c = true) : isGap c = false := by
  rcases startsKey_iff.1 h with rfl | rfl | h
  · decide
  · decide
  · exact isGap_of_isNameChar h

inductive IsComma : Text → Prop where
  | left_out : IsComma []
  | written : IsGap w → IsComma (w ++ [','])

theorem exists_comma (t : Text) : ∃ s, IsComma s ∧ t = s ++ (char? ',' (skipGap t)).getD t := by
  cases h : char? ',' (skipGap t) with
  | none => exact ⟨[], .left_out, rfl⟩
  | some r =>
    obtain ⟨w, hw, ht⟩ := (char?_skipGap_iff (by decide)).1 h
    exact ⟨w ++ [','], .written hw, by simp [ht]⟩

theorem IsComma.skip {s rest : Text} (h : IsComma s) (hrest : char? ',' (skipGap rest) = none) :
    (char? ',' (skipGap (s ++ rest))).getD (s ++ rest) = rest := by
  cases h with
  | left_out => rw [List.nil_append, hrest, Option.getD_none]
  | @written w hw =>
    have h : char? ',' (skipGap (w ++ [','] ++ rest)) = some rest :=
      (char?_skipGap_iff (by decide)).2 ⟨w, hw, by simp⟩
    rw [h, Option.getD_some]

theorem readAll_of_comment (item : ItemReader α) {t c r : Text}
    (h : comment? (skipGap t) = some (c, r)) : item.readAll t = item.readAll r := by
  rw [ItemReader.readAll]
  split
  · next hc =>
    obtain ⟨-, rfl⟩ := Prod.mk.inj (Option.some.inj (h.symm.trans hc))
    rfl
  · next hc => rw [h] at hc; exact absurd hc (by simp)

theorem readAll_of_item {item : ItemReader α} {t r : Text} {a : α}
    (hc : comment? (skipGap t) = none) (h : item.read? (skipGap t) = some (a, r)) :
    item.readAll t = (a :: (item.readAll r).1, (item.readAll r).2) := by
  rw [ItemReader.readAll]
  split
  · next hc' => rw [hc] at hc'; exact absurd hc' (by simp)
  · split
    · next hi =>
      obtain ⟨rfl, rfl⟩ := Prod.mk.inj (Option.some.inj (h.symm.trans hi))
      rfl
    · next hi => rw [h] at hi; exact absurd hi (by simp)

theorem readAll_of_none {item : ItemReader α} {t : Text} (hc : comment? (skipGap t) = none)
    (h : item.read? (skipGap t) = none) : item.readAll t = ([], skipGap t) := by
  rw [ItemReader.readAll]
  split
  · next hc' => rw [hc] at hc'; exact absurd hc' (by simp)
  · split
    · next hi => rw [h] at hi; exact absurd hi (by simp)
    · rfl

theorem readAll_gap_append (item : ItemReader α) {w : Text} (hw : IsGap w) (t : Text) :
    item.readAll (w ++ t) = item.readAll t := by
  have hskip := skipGap_append hw t
  cases hc : comment? (skipGap t) with
  | some found =>
    rw [readAll_of_comment item (t := w ++ t) (by rw [hskip]; exact hc), readAll_of_comment item hc]
  | none =>
    cases hi : item.read? (skipGap t) with
    | some found =>
      rw [readAll_of_item (t := w ++ t) (by rw [hskip]; exact hc) (by rw [hskip]; exact hi),
        readAll_of_item hc hi]
    | none =>
      rw [readAll_of_none (t := w ++ t) (by rw [hskip]; exact hc) (by rw [hskip]; exact hi),
        readAll_of_none hc hi, hskip]

@[elab_as_elim]
theorem readAll_induction (item : ItemReader α) {motive : Text → Prop}
    (comment : ∀ {t note r}, comment? (skipGap t) = some (note, r) → motive r → motive t)
    (read : ∀ {t a r}, comment? (skipGap t) = none → item.read? (skipGap t) = some (a, r) →
      motive r → motive t)
    (stop : ∀ {t}, comment? (skipGap t) = none → item.read? (skipGap t) = none → motive t)
    (t : Text) : motive t := by
  induction hn : t.length using Nat.strongRecOn generalizing t with
  | ind n ih =>
    cases hc : comment? (skipGap t) with
    | some found =>
      have hlt : found.2.length < n :=
        hn ▸ Nat.lt_of_lt_of_le (length_of_comment? hc) (length_skipGap_le t)
      exact comment hc (ih _ hlt _ rfl)
    | none =>
      cases hi : item.read? (skipGap t) with
      | some found =>
        have hlt : found.2.length < n :=
          hn ▸ Nat.lt_of_lt_of_le (item.shortens hi) (length_skipGap_le t)
        exact read hc hi (ih _ hlt _ rfl)
      | none => exact stop hc hi

theorem readAll_map {β : Type} {item : ItemReader α} {other : ItemReader β} {g : α → β}
    (h : ∀ t, other.read? t = (item.read? t).map fun m => (g m.1, m.2)) (t : Text) :
    other.readAll t = ((item.readAll t).1.map g, (item.readAll t).2) := by
  induction t using readAll_induction item with
  | comment hc ih => rw [readAll_of_comment other hc, readAll_of_comment item hc, ih]
  | @read t a r hc hi ih =>
    have hread := h (skipGap t)
    rw [hi, Option.map_some] at hread
    rw [readAll_of_item hc hi, readAll_of_item hc hread, ih, List.map_cons]
  | @stop t hc hi =>
    have hread := h (skipGap t)
    rw [hi, Option.map_none] at hread
    rw [readAll_of_none hc hi, readAll_of_none hc hread, List.map_nil]

theorem many_of_none {β : Type} {read? : Text → Option (β × Text)} {t : Text}
    (h : read? t = none) : many read? t = .ok ([], t) := by
  rw [many]
  simp only [h]

theorem many_of_some {β : Type} {read? : Text → Option (β × Text)} {t r : Text} {b : β}
    (h : read? t = some (b, r)) (hlt : r.length < t.length) :
    many read? t = (many read? r).map fun (bs, rest) => (b :: bs, rest) := by
  rw [many]
  simp only [h, dif_pos hlt]

theorem next?_of_comment (item : ItemReader α) {t note r : Text}
    (h : comment? (skipGap t) = some (note, r)) : item.next? t = some (none, r) := by
  simp only [ItemReader.next?, h]

theorem next?_of_none (item : ItemReader α) {t : Text} (h : comment? (skipGap t) = none) :
    item.next? t = (item.read? (skipGap t)).map fun (a, r) => (some a, r) := by
  simp only [ItemReader.next?, h]

/-- A comment and an item both take something up, so that a body is always read to its end. -/
theorem ItemReader.body_eq (item : ItemReader α) (t : Text) :
    item.body t = .ok (item.readAll t) := by
  induction t using readAll_induction item with
  | @comment t note r hc ih =>
    have hlt := Nat.lt_of_lt_of_le (length_of_comment? hc) (length_skipGap_le t)
    rw [readAll_of_comment item hc, ← ih, body, body, many_of_some (next?_of_comment item hc) hlt]
    cases many item.next? r <;> rfl
  | @read t a r hc hi ih =>
    have hlt := Nat.lt_of_lt_of_le (item.shortens hi) (length_skipGap_le t)
    have hnext : item.next? t = some (some a, r) := by
      rw [next?_of_none item hc, hi, Option.map_some]
    rw [readAll_of_item hc hi]
    rw [body] at ih ⊢
    rw [many_of_some hnext hlt]
    cases hmany : many item.next? r with
    | error stuck =>
      rw [hmany] at ih
      exact nomatch ih
    | ok found =>
      rw [hmany] at ih
      rw [← Except.ok.inj ih]
      rfl
  | @stop t hc hi =>
    have hnext : item.next? t = none := by rw [next?_of_none item hc, hi, Option.map_none]
    rw [readAll_of_none hc hi, body, many_of_none hnext]
    rfl

theorem Declaration.find_of_header (d : Declaration α) {source : Text} {header : Span}
    (hheader : occurrences d.header source = [header]) :
    d.find source =
      match d.item.readAll (source.drop header.stop) with
      | (_, []) => .error (.unclosed d.name)
      | (items, c :: rest) =>
        if c = '\x7d' then
          .ok
            { head := source.take header.stop
              body := (source.drop header.stop).take
                ((source.drop header.stop).length - (c :: rest).length)
              tail := c :: rest
              items := items }
        else
          .error (.unexpected d.name (lineNumber source (source.length - (c :: rest).length))) := by
  rw [find]
  simp only [hheader, ItemReader.body_eq]
  cases d.item.readAll (source.drop header.stop) with
  | mk items rest => cases rest <;> rfl

variable {item : ItemReader α} {IsItem : Text → α → Prop}

theorem isBody_gap_append {w b after : Text} {as : List α} (hw : IsGap w)
    (h : IsBody IsItem after b as) : IsBody IsItem after (w ++ b) as := by
  induction w with
  | nil => exact h
  | cons c w ih => exact .gap (hw c List.mem_cons_self) (ih fun d hd => hw d (.tail c hd))

theorem isBody_of_isGap {w after : Text} (hw : IsGap w) : IsBody IsItem after w [] := by
  have h : IsBody IsItem after (w ++ []) [] := isBody_gap_append hw .nil
  rwa [List.append_nil] at h

theorem IsBody.exists_item {b after : Text} {as : List α} (h : IsBody IsItem after b as) :
    ∀ a ∈ as, ∃ s, s <:+: b ∧ IsItem s a := by
  induction h with
  | nil => simp
  | @gap c b as _ _ ih =>
    intro a ha
    obtain ⟨s, hin, hs⟩ := ih a ha
    exact ⟨s, hin.trans (List.suffix_cons c b).isInfix, hs⟩
  | @comment note b as _ _ _ ih =>
    intro a ha
    obtain ⟨s, hin, hs⟩ := ih a ha
    exact ⟨s, hin.trans (List.suffix_append (commentMark ++ note) b).isInfix, hs⟩
  | @item s a b as hs _ ih =>
    refine List.forall_mem_cons.2 ⟨⟨s, (List.prefix_append s b).isInfix, hs⟩, fun a' ha => ?_⟩
    obtain ⟨s', hin, hs'⟩ := ih a' ha
    exact ⟨s', hin.trans (List.suffix_append s b).isInfix, hs'⟩

theorem IsBody.count_flatMap_le {b after : Text} {as : List α} (h : IsBody IsItem after b as)
    {c : Char}
    {text : α → Text} (hitem : ∀ {s a}, IsItem s a → (text a).count c ≤ s.count c) :
    (as.flatMap text).count c ≤ b.count c := by
  induction h with
  | nil => exact Nat.zero_le _
  | @gap d b as _ _ ih =>
    rw [List.count_cons]
    omega
  | @comment note b as _ _ _ ih =>
    rw [List.count_append]
    omega
  | @item s a b as hs _ ih =>
    have ha := hitem hs
    rw [List.flatMap_cons, List.count_append, List.count_append]
    omega

theorem atLineEnd_append {b y z : Text} (hy : ∃ c ∈ y.head?, isLineEnd c = false)
    (hz : ∃ c ∈ z.head?, isLineEnd c = false) : atLineEnd (b ++ y) = atLineEnd (b ++ z) := by
  obtain ⟨c, hhead, hc⟩ := hy
  obtain ⟨d, hhead', hd⟩ := hz
  obtain ⟨y, rfl⟩ := List.head?_eq_some_iff.1 hhead
  obtain ⟨z, rfl⟩ := List.head?_eq_some_iff.1 hhead'
  simp only [isLineEnd, Bool.or_eq_false_iff, decide_eq_false_iff_not] at hc hd
  cases b with
  | nil => simp [atLineEnd, hc, hd]
  | cons e b =>
    by_cases hn : e = '\n'
    · simp [atLineEnd, hn]
    by_cases hr : e = '\r'
    · cases b with
      | nil => simp [atLineEnd, hr, hc, hd]
      | cons e' b =>
        by_cases hn' : e' = '\n'
        · simp [atLineEnd, hr, hn']
        · simp [atLineEnd, hr, hn']
    · simp [atLineEnd, hn, hr]

/-- A body does not depend on what follows it, if that ends no line. -/
theorem IsBody.replace {b y z : Text} {as : List α} (h : IsBody IsItem y b as)
    (hy : ∃ c ∈ y.head?, isLineEnd c = false) (hz : ∃ c ∈ z.head?, isLineEnd c = false) :
    IsBody IsItem z b as := by
  induction h with
  | nil => exact .nil
  | gap hc _ ih => exact .gap hc ih
  | comment hnote hend _ ih => exact .comment hnote (by rwa [atLineEnd_append hz hy]) ih
  | item hs _ ih => exact .item hs ih

theorem IsBody.append {a b after : Text} {as bs : List α} (ha : IsBody IsItem (b ++ after) a as)
    (hb : IsBody IsItem after b bs) : IsBody IsItem after (a ++ b) (as ++ bs) := by
  induction ha with
  | nil => exact hb
  | gap hc _ ih => exact .gap hc ih
  | comment hnote hend _ ih =>
    rw [List.append_assoc]
    exact .comment hnote (by rwa [List.append_assoc]) ih
  | item hs _ ih =>
    rw [List.append_assoc]
    exact .item hs ih

/-- What is read is a body, and reading stops where neither a comment nor an item follows. -/
theorem isBody_readAll (h : item.Reads IsItem) (t : Text) :
    ∃ b, t = b ++ (item.readAll t).2 ∧ IsBody IsItem (item.readAll t).2 b (item.readAll t).1 := by
  induction t using readAll_induction item with
  | @comment t note r hc ih =>
    obtain ⟨w, hw, ht⟩ := exists_gap t
    obtain ⟨hu, hnote, hend⟩ := comment?_eq_some_iff.1 hc
    obtain ⟨b, hr, hb⟩ := ih
    rw [readAll_of_comment item hc]
    refine ⟨w ++ (commentMark ++ note ++ b), ?_,
      isBody_gap_append hw (.comment hnote (hr ▸ hend) hb)⟩
    rw [List.append_assoc, List.append_assoc, ← hr, ← hu, ← ht]
  | @read t a r hc hi ih =>
    obtain ⟨w, hw, ht⟩ := exists_gap t
    obtain ⟨s, hu, hs⟩ := h.sound hi
    obtain ⟨b, hr, hb⟩ := ih
    rw [readAll_of_item hc hi]
    refine ⟨w ++ (s ++ b), ?_, isBody_gap_append hw (.item hs hb)⟩
    rw [List.append_assoc, List.append_assoc, ← hr, ← hu, ← ht]
  | @stop t hc hi =>
    obtain ⟨w, hw, ht⟩ := exists_gap t
    rw [readAll_of_none hc hi]
    exact ⟨w, ht, isBody_of_isGap hw⟩

theorem IsBody.head_skipGap (h : item.Reads IsItem) {after b : Text} {as : List α}
    (hb : IsBody IsItem after b as) :
    ∀ c ∈ (skipGap b).head?, c = '/' ∨ startsKey c = true := by
  induction hb with
  | nil => simp [skipGap]
  | @gap c b as hc _ ih =>
    rw [← List.singleton_append, skipGap_append (w := [c]) (by simpa [IsGap] using hc)]
    exact ih
  | comment =>
    intro c hc
    left
    rw [show commentMark = ['/', '/'] from rfl] at hc
    simpa [skipGap, isGap, eq_comm] using hc
  | @item s a b as hs _ _ =>
    obtain ⟨d, hd, hkey⟩ := h.start hs
    intro c hc
    cases s with
    | nil => cases hd
    | cons e s =>
      obtain rfl := Option.some.inj hd
      rw [List.cons_append, skipGap_cons (isGap_of_startsKey hkey)] at hc
      obtain rfl := Option.some.inj hc
      exact .inr hkey

/-- A text at which reading ends, and which no comma starts. -/
structure ItemReader.StopsAt (item : ItemReader α) (t : Text) : Prop where
  gap : skipGap t = t
  comment : comment? t = none
  read : item.read? t = none
  comma : t.head? ≠ some ','

theorem ItemReader.Reads.stopsAt_brace (h : item.Reads IsItem) (rest : Text) :
    item.StopsAt ('\x7d' :: rest) where
  gap := skipGap_cons (by decide) rest
  comment := comment?_eq_none_of_head (by simp)
  comma := by simp
  read := by
    cases hi : item.read? ('\x7d' :: rest) with
    | none => rfl
    | some found =>
      obtain ⟨s, ht, hs⟩ := h.sound (show _ = some (found.1, found.2) from hi)
      obtain ⟨c, hc, hkey⟩ := h.start hs
      cases s with
      | nil => cases hc
      | cons d s =>
        obtain rfl := Option.some.inj hc
        obtain ⟨rfl, -⟩ := List.cons.inj ht
        exact absurd hkey (by decide)

theorem IsBody.no_comma (h : item.Reads IsItem) {after b : Text} {as : List α}
    (hb : IsBody IsItem after b as) (hafter : char? ',' (skipGap after) = none) :
    char? ',' (skipGap (b ++ after)) = none := by
  rw [char?_eq_none_iff] at hafter ⊢
  rw [skipGap, List.dropWhile_append]
  split
  · exact hafter
  · next hne =>
    cases hb' : b.dropWhile isGap with
    | nil => simp [hb'] at hne
    | cons c u =>
      intro hc
      obtain rfl := Option.some.inj hc
      cases hb.head_skipGap h ',' (by rw [skipGap, hb']; rfl) with
      | inl hslash => exact absurd hslash (by decide)
      | inr hkey => exact absurd hkey (by decide)

/-- Reading takes off the whole of a body, with the items that the grammar gives it, and goes on
behind it. -/
theorem IsBody.readAll_append (h : item.Reads IsItem) {after b : Text} {as : List α}
    (hb : IsBody IsItem after b as) (hafter : char? ',' (skipGap after) = none) :
    item.readAll (b ++ after) = (as ++ (item.readAll after).1, (item.readAll after).2) := by
  induction hb with
  | nil => rfl
  | @gap c b as hc _ ih =>
    rw [List.cons_append, ← List.singleton_append,
      readAll_gap_append item (w := [c]) (by simpa [IsGap] using hc), ih]
  | @comment note b as hnote hend _ ih =>
    have hu : skipGap (commentMark ++ note ++ b ++ after) = commentMark ++ note ++ b ++ after :=
      skipGap_cons (by decide) _
    have hc : comment? (skipGap (commentMark ++ note ++ b ++ after)) = some (note, b ++ after) := by
      rw [hu, comment?_eq_some_iff]
      exact ⟨by simp, hnote, hend⟩
    rw [readAll_of_comment item hc, ih]
  | @item s a b as hs hb ih =>
    have hread := h.complete hs (hb.no_comma h hafter)
    obtain ⟨c, hc, hkey⟩ := h.start hs
    cases s with
    | nil => cases hc
    | cons d s =>
      obtain rfl := Option.some.inj hc
      have hu : skipGap (d :: s ++ (b ++ after)) = d :: s ++ (b ++ after) :=
        skipGap_cons (isGap_of_startsKey hkey) _
      rw [List.append_assoc, readAll_of_item (r := b ++ after) (a := a), ih]
      · rfl
      · rw [hu]
        refine comment?_eq_none_of_head fun h => ?_
        obtain rfl := Option.some.inj h
        exact absurd hkey (by decide)
      · rw [hu, hread]

theorem IsBody.readAll (h : item.Reads IsItem) {after b : Text} {as : List α}
    (hb : IsBody IsItem after b as) (hafter : item.StopsAt after) :
    item.readAll (b ++ after) = (as, after) := by
  have hstop : item.readAll after = ([], after) := by
    rw [readAll_of_none (by rw [hafter.gap]; exact hafter.comment)
      (by rw [hafter.gap]; exact hafter.read), hafter.gap]
  have hcomma : char? ',' (skipGap after) = none := by
    rw [hafter.gap, char?_eq_none_iff]
    exact hafter.comma
  rw [hb.readAll_append h hcomma, hstop, List.append_nil]

/-- Finding a declaration reads its only header, a body of the grammar and the closing brace. -/
theorem Declaration.find_eq_ok_iff {d : Declaration α} (h : d.item.Reads IsItem) {source : Text}
    {header : Span} (hheader : occurrences d.header source = [header]) {found : Found α} :
    d.find source = .ok found ↔ ∃ rest, found.tail = '\x7d' :: rest ∧
      found.head = source.take header.stop ∧
      source.drop header.stop = found.body ++ found.tail ∧
      IsBody IsItem found.tail found.body found.items := by
  obtain ⟨b, hb, hread⟩ := isBody_readAll h (source.drop header.stop)
  rw [d.find_of_header hheader]
  constructor
  · intro hok
    generalize d.item.readAll (source.drop header.stop) = reading at hok hb hread
    obtain ⟨items, rest⟩ := reading
    cases rest with
    | nil => exact nomatch hok
    | cons c rest =>
      dsimp only at hok hb hread
      split at hok
      · next hc =>
        subst hc
        obtain rfl := Except.ok.inj hok
        have hlen : (source.drop header.stop).length - ('\x7d' :: rest).length = b.length := by
          rw [hb, List.length_append]
          omega
        have htake : (source.drop header.stop).take b.length = b := by rw [hb, List.take_left]
        refine ⟨rest, rfl, rfl, ?_, ?_⟩
        · simpa only [hlen, htake] using hb
        · simpa only [hlen, htake] using hread
      · exact nomatch hok
  · rintro ⟨rest, htail, hhead, hsource, hbody⟩
    rw [htail] at hsource hbody
    have hall := hbody.readAll h (h.stopsAt_brace rest)
    rw [← hsource] at hall
    simp only [hall, if_true, Except.ok.injEq]
    obtain ⟨head, body, tail, items⟩ := found
    simp only at hhead htail hsource ⊢
    have hlen : (source.drop header.stop).length - ('\x7d' :: rest).length = body.length := by
      rw [hsource, List.length_append]
      omega
    rw [hlen, hsource, List.take_left, hhead, htail]

theorem Declaration.exists_header_of_find {d : Declaration α} {source : Text} {found : Found α}
    (h : d.find source = .ok found) : ∃ header, occurrences d.header source = [header] := by
  unfold Declaration.find at h
  split at h
  · simp at h
  · simp at h
  · next header heq => exact ⟨header, heq⟩

theorem Declaration.exists_of_find {d : Declaration α} (h : d.item.Reads IsItem) {source : Text}
    {found : Found α} (hfind : d.find source = .ok found) :
    ∃ header rest, occurrences d.header source = [header] ∧ found.tail = '\x7d' :: rest ∧
      found.head = source.take header.stop ∧
      source.drop header.stop = found.body ++ '\x7d' :: rest ∧
      IsBody IsItem ('\x7d' :: rest) found.body found.items := by
  obtain ⟨header, hheader⟩ := exists_header_of_find hfind
  obtain ⟨rest, htail, hhead, hsource, hbody⟩ := (find_eq_ok_iff h hheader).1 hfind
  rw [htail] at hsource hbody
  exact ⟨header, rest, hheader, htail, hhead, hsource, hbody⟩

theorem bind_eq_ok_iff {ε γ δ : Type} {x : Except ε γ} {f : γ → Except ε δ} {b : δ} :
    (x >>= f) = .ok b ↔ ∃ a, x = .ok a ∧ f a = .ok b := by
  cases x <;> simp [bind, Except.bind]

end IconCatalog.Source
