import IconCatalog.Proofs.Layout
import IconCatalog.Proofs.Source.Body
import IconCatalog.Proofs.Source.Occurrence
/-!
Where the items of a declaration stand in a source text, and the reading of a body up to the start
of a line that no item reaches over.
-/
namespace IconCatalog.Source
open Text
variable {α : Type}

def EndsLine (t : Text) : Prop := t = [] ∨ t.getLast? = some '\n'

theorem EndsLine.of_append {a b : Text} (h : EndsLine (a ++ b)) : EndsLine b := by
  cases b with
  | nil => exact .inl rfl
  | cons c b =>
    refine .inr ?_
    cases h with
    | inl h => simp at h
    | inr h => rwa [getLast?_suffix rfl (List.cons_ne_nil c b)] at h

theorem EndsLine.exists_line {t : Text} (h : EndsLine t) (hne : t ≠ []) :
    ∃ l u, t = l ++ '\n' :: u ∧ '\n' ∉ l ∧ EndsLine u := by
  have hmem : '\n' ∈ t := List.mem_of_getLast? (h.resolve_left hne)
  obtain ⟨l, u, rfl, hl⟩ := List.eq_append_cons_of_mem hmem
  rw [show l ++ '\n' :: u = l ++ ['\n'] ++ u by simp] at h
  exact ⟨l, u, rfl, hl, h.of_append⟩

theorem EndsLine.exists_append {x z w r : Text} (h : EndsLine x) (hne : x ≠ []) (hw : '\n' ∉ w)
    (heq : x ++ z = w ++ r) : ∃ y, x = w ++ y ∧ r = y ++ z ∧ EndsLine y := by
  rcases List.append_eq_append_iff.1 heq with ⟨c, rfl, -⟩ | ⟨c, rfl, rfl⟩
  · obtain ⟨l, u, rfl, -, -⟩ := h.exists_line hne
    exact absurd (by simp) hw
  · exact ⟨c, rfl, rfl, h.of_append⟩

theorem EndsLine.foldl_step {t : Text} (h : EndsLine t) :
    t.foldl LineState.step .start = .start := by
  cases h with
  | inl h => rw [h]; rfl
  | inr h =>
    obtain ⟨u, rfl⟩ := List.getLast?_eq_some_iff.1 h
    exact foldl_step_newline .start u

theorem EndsLine.lines_append {t : Text} (h : EndsLine t) (u : Text) :
    lines (t ++ u) = lines t ++ lines u := by
  induction hn : t.length using Nat.strongRecOn generalizing t with
  | ind n ih =>
    by_cases hne : t = []
    · rw [hne]; rfl
    · obtain ⟨l, v, rfl, hl, hv⟩ := h.exists_line hne
      have hlt : v.length < n := by
        rw [← hn, List.length_append, List.length_cons]
        omega
      rw [List.append_assoc, List.cons_append, Text.lines_append hl, Text.lines_append hl,
        ih v.length hlt hv rfl, List.cons_append]

/-- A reader that also tells where each item stands, in a text of `n` characters that is read to its
end. -/
def ItemReader.located (item : ItemReader α) (n : Nat) : ItemReader (α × Span) where
  read? t := (item.read? t).map fun m => ((m.1, ⟨n - t.length, n - m.2.length⟩), m.2)
  shortens := fun {t x r} h => by
    obtain ⟨m, hm, heq⟩ := Option.map_eq_some_iff.1 h
    obtain ⟨-, rfl⟩ := Prod.mk.inj heq
    exact item.shortens (show item.read? t = some (m.1, m.2) from hm)

def Declaration.spans (d : Declaration α) (source : Text) : List Span :=
  (occurrences d.header source).flatMap fun header =>
    ((d.item.located source.length).readAll (source.drop header.stop)).1.map (·.2)

section
variable {item : ItemReader α} {IsItem : Text → α → Prop}

theorem readAll_eq_located (item : ItemReader α) (n : Nat) (t : Text) : item.readAll t =
    (((item.located n).readAll t).1.map (·.1), ((item.located n).readAll t).2) := by
  refine readAll_map (fun u => ?_) t
  simp only [ItemReader.located, Option.map_map, Function.comp_def]
  exact Option.map_id'.symm

theorem Declaration.exists_located {d : Declaration α} {source : Text} {found : Found α}
    (hfind : d.find source = .ok found) :
    ∃ xs : List (α × Span), xs.map (·.1) = found.items ∧ xs.map (·.2) = d.spans source := by
  obtain ⟨header, hheader⟩ := Declaration.exists_header_of_find hfind
  refine ⟨((d.item.located source.length).readAll (source.drop header.stop)).1, ?_, ?_⟩
  · have hitems : found.items = (d.item.readAll (source.drop header.stop)).1 := by
      rw [d.find_of_header hheader] at hfind
      split at hfind
      · exact nomatch hfind
      · next hread =>
        split at hfind
        · rw [hread, ← Except.ok.inj hfind]
        · exact nomatch hfind
    rw [hitems, readAll_eq_located d.item source.length]
  · rw [Declaration.spans, hheader, List.flatMap_singleton]

theorem ItemReader.located_read? (item : ItemReader α) (n : Nat) (t : Text) :
    (item.located n).read? t =
      (item.read? t).map fun m => ((m.1, ⟨n - t.length, n - m.2.length⟩), m.2) := rfl

theorem readAll_located_of_item {n : Nat} {t r : Text} {a : α} (hc : comment? (skipGap t) = none)
    (hi : item.read? (skipGap t) = some (a, r)) : ((item.located n).readAll t).1 =
      (a, ⟨n - (skipGap t).length, n - r.length⟩) :: ((item.located n).readAll r).1 := by
  have hread := item.located_read? n (skipGap t)
  rw [hi, Option.map_some] at hread
  rw [readAll_of_item hc hread]

theorem exists_of_mem_located (h : item.Reads IsItem) {n : Nat} {t : Text} {x : α × Span}
    (hx : x ∈ ((item.located n).readAll t).1) :
    ∃ u s r, t = u ++ (s ++ r) ∧ IsItem s x.1 ∧ x.2 = ⟨n - (s ++ r).length, n - r.length⟩ := by
  induction t using readAll_induction item with
  | @comment t note r hc ih =>
    obtain ⟨w, -, ht⟩ := exists_gap t
    rw [readAll_of_comment _ hc] at hx
    obtain ⟨u, s, r', hr, hs, hspan⟩ := ih hx
    refine ⟨w ++ (commentMark ++ note ++ u), s, r', ?_, hs, hspan⟩
    rw [ht, (comment?_eq_some_iff.1 hc).1, hr]
    simp
  | @read t a r hc hi ih =>
    obtain ⟨w, -, ht⟩ := exists_gap t
    obtain ⟨s, hu, hs⟩ := h.sound hi
    rw [readAll_located_of_item hc hi] at hx
    cases List.mem_cons.1 hx with
    | inl hfirst =>
      rw [hfirst]
      exact ⟨w, s, r, by rw [← hu, ← ht], hs, by rw [← hu]⟩
    | inr hlater =>
      obtain ⟨u, s', r', hr, hs', hspan⟩ := ih hlater
      refine ⟨w ++ (s ++ u), s', r', ?_, hs', hspan⟩
      rw [ht, hu, hr]
      simp
  | @stop t hc hi =>
    have hnone := item.located_read? n (skipGap t)
    rw [hi, Option.map_none] at hnone
    rw [readAll_of_none hc hnone] at hx
    exact nomatch hx

theorem exists_filled (t : Text) : IsGap t ∨ ∃ w u, t = w ++ u ∧ IsGap w ∧ u ≠ [] ∧
    ∀ z, skipGap (t ++ z) = u ++ z := by
  obtain ⟨w, hw, ht⟩ := exists_gap t
  cases hu : skipGap t with
  | nil =>
    rw [hu, List.append_nil] at ht
    exact .inl (ht ▸ hw)
  | cons c u =>
    rw [hu] at ht
    have hc : isGap c = false := head_skipGap t c (by rw [hu]; rfl)
    refine .inr ⟨w, c :: u, ht, hw, List.cons_ne_nil c u, fun z => ?_⟩
    rw [ht, List.append_assoc, List.cons_append]
    exact skipGap_gap_cons hw hc (u ++ z)

/-- What is read up to a line, where reading does not end before it, or what is read before it. -/
inductive ReadsUpTo (item : ItemReader α) (IsItem : Text → α → Prop) (x z : Text) : Prop where
  | line : IsBody IsItem z x as → ReadsUpTo item IsItem x z
  | stop : x = b ++ y → y ≠ [] → IsBody IsItem (y ++ z) b as →
      item.readAll (x ++ z) = (as, y ++ z) → ReadsUpTo item IsItem x z

theorem ReadsUpTo.comment {w note y x z : Text} (h : ReadsUpTo item IsItem y z) (hw : IsGap w)
    (hx : x = w ++ (commentMark ++ note ++ y))
    (hc : comment? (skipGap (x ++ z)) = some (note, y ++ z)) : ReadsUpTo item IsItem x z := by
  obtain ⟨-, hnote, hend⟩ := comment?_eq_some_iff.1 hc
  cases h with
  | line hbody =>
    rw [hx]
    exact .line (isBody_gap_append hw (.comment hnote hend hbody))
  | @stop b v as hy hv hbody hread =>
    rw [hy, List.append_assoc] at hend
    refine .stop ?_ hv (isBody_gap_append hw (.comment hnote hend hbody)) ?_
    · rw [hx, hy]
      simp
    · rw [readAll_of_comment item hc, hread]

theorem ReadsUpTo.read {w s y x z : Text} {a : α} (h : ReadsUpTo item IsItem y z) (hw : IsGap w)
    (hx : x = w ++ (s ++ y)) (hs : IsItem s a) (hc : comment? (skipGap (x ++ z)) = none)
    (hi : item.read? (skipGap (x ++ z)) = some (a, y ++ z)) : ReadsUpTo item IsItem x z := by
  cases h with
  | line hbody =>
    rw [hx]
    exact .line (isBody_gap_append hw (.item hs hbody))
  | @stop b v as hy hv hbody hread =>
    refine .stop ?_ hv (isBody_gap_append hw (.item hs hbody)) ?_
    · rw [hx, hy]
      simp
    · rw [readAll_of_item hc hi, hread]

theorem readsUpTo_of_spans (h : item.Reads IsItem) {n : Nat} {x z : Text}
    (hx : EndsLine x) (hn : (x ++ z).length ≤ n)
    (hspans : ∀ a ∈ ((item.located n).readAll (x ++ z)).1,
      a.2.stop ≤ n - z.length ∨ n - z.length ≤ a.2.start) : ReadsUpTo item IsItem x z := by
  induction ht : x ++ z using readAll_induction item generalizing x with
  | @comment t note r hc ih =>
    subst ht
    rcases exists_filled x with hgap | ⟨w, u, hsplit, hw, hne, hskip⟩
    · exact .line (isBody_of_isGap hgap)
    · obtain ⟨heq, hnote, -⟩ := comment?_eq_some_iff.1 hc
      have hfree : '\n' ∉ commentMark ++ note := by
        intro hmem
        cases List.mem_append.1 hmem with
        | inl hmem => exact absurd hmem (by decide)
        | inr hmem => exact absurd (hnote _ hmem) (by decide)
      rw [hsplit] at hx
      rw [hskip] at heq
      obtain ⟨y, hu, rfl, hy⟩ := hx.of_append.exists_append hne hfree heq
      rw [hu] at hsplit
      have hle : (y ++ z).length ≤ n := by
        rw [hsplit] at hn
        simp only [List.length_append] at hn ⊢
        omega
      rw [readAll_of_comment _ hc] at hspans
      exact (ih hy hle hspans rfl).comment hw hsplit hc
  | @read t a r hc hi ih =>
    subst ht
    rcases exists_filled x with hgap | ⟨w, u, hsplit, hw, hne, hskip⟩
    · exact .line (isBody_of_isGap hgap)
    · obtain ⟨s, heq, hs⟩ := h.sound hi
      rw [readAll_located_of_item hc hi, List.forall_mem_cons] at hspans
      rw [hskip] at heq hspans
      -- the item starts before the line, so it has to stop there
      obtain ⟨y, hu, rfl⟩ : ∃ y, u = s ++ y ∧ r = y ++ z := by
        rcases List.append_eq_append_iff.1 heq with ⟨c, hs', hz'⟩ | ⟨c, hu, hr⟩
        · have hpos := List.length_pos_iff.2 hne
          have hlength := congrArg List.length hz'
          rw [hsplit] at hn
          simp only [List.length_append] at hn hlength hspans
          obtain rfl : c = [] := List.eq_nil_of_length_eq_zero (by omega)
          exact ⟨[], by simp [hs'], by rw [hz']; rfl⟩
        · exact ⟨c, hu, hr⟩
      rw [hu] at hsplit
      have hle : (y ++ z).length ≤ n := by
        rw [hsplit] at hn
        simp only [List.length_append] at hn ⊢
        omega
      rw [hsplit] at hx
      exact (ih hx.of_append.of_append hle hspans.2 rfl).read hw hsplit hs hc hi
  | @stop t hc hi =>
    subst ht
    rcases exists_filled x with hgap | ⟨w, u, hsplit, hw, hne, hskip⟩
    · exact .line (isBody_of_isGap hgap)
    · exact .stop hsplit hne (isBody_of_isGap hw) (by rw [readAll_of_none hc hi, hskip])

end

end IconCatalog.Source
