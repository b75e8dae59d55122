import IconCatalog.Proofs.ImageHelper.Splice
/-!
What pointing the helpers at another base leaves alone. Where the definitions and the table start
at line starts, a definition ends in front of the next unindented line, so that no replaced span
reaches into another one, into an unrelated line or into the table.
-/
namespace IconCatalog.ImageHelper
open Text Source
variable {source base : Text} {o m : Option Category}

def StartsLine (source : Text) (n : Nat) : Prop := ∀ c ∈ (source.take n).getLast?, c = '\n'

instance (source : Text) (n : Nat) : Decidable (StartsLine source n) :=
  decidable_of_iff ((source.take n).getLast?.all (· = '\n') = true)
    (by simp [StartsLine, Option.all_eq_true])

theorem startsLine_append {u v : Text} : StartsLine (u ++ v) u.length ↔
    u = [] ∨ ∃ a, u = a ++ ['\n'] := by
  rw [StartsLine, List.take_left]
  constructor
  · intro h
    cases hlast : u.getLast? with
    | none => exact .inl (List.getLast?_eq_none_iff.1 hlast)
    | some c =>
      obtain ⟨a, ha⟩ := List.getLast?_eq_some_iff.1 hlast
      exact .inr ⟨a, by rw [ha, h c hlast]⟩
  · rintro (rfl | ⟨a, rfl⟩)
    · simp
    · simp

theorem stop_lt_of_startsLine {u v u' v' : Text} (hsplit : u ++ v = u' ++ v')
    (hlt : u.length < u'.length) (hline : StartsLine (u' ++ v') u'.length)
    (hv' : ∃ c ∈ v'.head?, isBlank c = false) :
    u.length + definitionLength v < u'.length := by
  rcases startsLine_append.1 hline with rfl | ⟨a, rfl⟩
  · exact absurd hlt (Nat.not_lt_zero _)
  · obtain ⟨c, hc, hblank⟩ := hv'
    obtain ⟨t, rfl⟩ := List.head?_eq_some_iff.1 hc
    rcases List.append_eq_append_iff.1 hsplit with ⟨k, hk, rfl⟩ | ⟨k, rfl, -⟩
    · obtain ⟨b, rfl⟩ : ∃ b, k = b ++ ['\n'] := by
        rcases List.eq_nil_or_concat k with rfl | ⟨b, d, rfl⟩
        · rw [List.append_nil] at hk
          exact absurd hlt (by simp [hk])
        · rw [List.concat_eq_append, ← List.append_assoc] at hk
          exact ⟨b, by rw [List.concat_eq_append, (List.append_inj' hk rfl).2]⟩
      have hle := definitionLength_le (u := b) (v := t) hblank
      have hlength := congrArg List.length hk
      simp only [List.append_assoc, List.cons_append, List.nil_append, List.length_append,
        List.length_cons, List.length_nil] at hle hlength ⊢
      omega
    · simp only [List.length_append] at hlt
      omega

theorem head_of_export {t : Text} (h : "export".toList <+: t) :
    ∃ c ∈ t.head?, isBlank c = false := by
  obtain ⟨more, rfl⟩ := h
  exact ⟨'e', rfl, by decide⟩

/-- The table stands at the start of a line, and so do all definitions in front of it. -/
structure IsLaidOut (source : Text) (header : Span) : Prop where
  table : firstOccurrence? Table.header source = some header
  line : StartsLine source header.start
  definitions : ∀ o found, firstOccurrence? (definitionOf (nameOf o)) source = some found →
    StartsLine source found.start ∧ found.start < header.start

variable {header : Span} {r s : Replacement}

theorem IsLaidOut.of_replacementOf? (h : IsLaidOut source header)
    (hr : replacementOf? source (nameOf o) (lineOf base o) = some r) :
    StartsLine source r.span.start ∧ r.span.start < header.start := by
  obtain ⟨found, hfound, rfl⟩ := Option.map_eq_some_iff.1 hr
  exact h.definitions o found hfound

theorem IsLaidOut.inFront (h : IsLaidOut source header) (hne : o ≠ m)
    (hr : replacementOf? source (nameOf o) (lineOf base o) = some r)
    (hs : replacementOf? source (nameOf m) (lineOf base m) = some s)
    (hle : r.span.start ≤ s.span.start) : r.InFront s := by
  have hstarts := (h.of_replacementOf? hs).1
  obtain ⟨u, v, x, hu, hm, -, -, rfl⟩ := exists_of_replacementOf? hr
  obtain ⟨u', v', x', rfl, hm', -, -, rfl⟩ := exists_of_replacementOf? hs
  have hlt : u.length < u'.length := by
    refine Nat.lt_of_le_of_ne hle fun hlength => hne ?_
    obtain ⟨rfl, rfl⟩ := List.append_inj hu.symm hlength
    exact eq_of_definitionOf (by rw [hm]; rfl) (by rw [hm']; rfl)
  exact Nat.le_of_lt (stop_lt_of_startsLine hu.symm hlt hstarts
    (head_of_export (definitionOf_starts hm')))

theorem IsLaidOut.stop_le (h : IsLaidOut source header) (hr : r ∈ replacements source base) :
    r.span.stop ≤ header.start := by
  obtain ⟨o, ho⟩ := mem_replacements_iff.1 hr
  have hlt := (h.of_replacementOf? ho).2
  have hstarts := h.line
  obtain ⟨u, v, x, hu, hm, -, -, rfl⟩ := exists_of_replacementOf? ho
  obtain ⟨u', v', x', rfl, -, -, hm', -, hstart⟩ := exists_of_firstOccurrence? h.table
  rw [hstart] at hlt hstarts ⊢
  exact Nat.le_of_lt (stop_lt_of_startsLine hu.symm hlt hstarts
    (head_of_export (Pattern.word_prefix_of_sequence hm')))

theorem isBlank_of_mem_span (hr : r ∈ replacements source base) {n : Nat}
    (hlt : r.span.start < n) (hstop : n < r.span.stop) (hline : StartsLine source n) :
    ∀ c ∈ source[n]?, isBlank c = true := by
  obtain ⟨o, ho⟩ := mem_replacements_iff.1 hr
  obtain ⟨u, v, x, hu, -, -, -, rfl⟩ := exists_of_replacementOf? ho
  intro c hc
  have hn := (List.getElem?_eq_some_iff.1 hc).1
  have htake : (source.take n).length = n := List.length_take_of_le (Nat.le_of_lt hn)
  have hsplit : u ++ v = source.take n ++ source.drop n := by rw [← hu, List.take_append_drop]
  refine Decidable.byContradiction fun hblank => ?_
  have hhead : c ∈ (source.drop n).head? := by rw [List.head?_drop]; exact hc
  have hbound := stop_lt_of_startsLine hsplit (by rw [htake]; exact hlt)
    (by rw [htake, List.take_append_drop]; exact hline) ⟨c, hhead, by simpa using hblank⟩
  rw [htake] at hbound
  exact absurd hstop (Nat.lt_asymm hbound)

/-- A new base leaves the table and all unrelated lines alone. The replaced spans stand one behind
the other in front of the table, hold no unindented line but their first one, and what is around
them is kept in order; without definitions, all of them come right before the table. -/
theorem retarget_keeps_around (base : Text) (h : IsLaidOut source header) :
    let rs := replacements source base
    let newline := Newline.detect source
    ∃ out, retarget source base = .ok (out, rs.length) ∧ source.drop header.start <:+ out ∧
      rs.Pairwise Replacement.InFront ∧
      (∀ r ∈ rs, r.span.start < r.span.stop ∧ r.span.stop ≤ header.start ∧
        (∃ o found, firstOccurrence? (definitionOf (nameOf o)) source = some found ∧
          r.span.start = found.start ∧ r.text = lineOf base o) ∧
        ∀ n, r.span.start < n → n < r.span.stop → StartsLine source n →
          ∀ c ∈ source[n]?, isBlank c = true) ∧
      (rs ≠ [] → Rewrites 0 source rs out) ∧
      (rs = [] → out = source.take header.start ++ definitions base newline ++ newline.text ++
        source.drop header.start) := by
  intro rs newline
  have hfront : rs.Pairwise Replacement.InFront :=
    pairwise_replacements fun o m r s => h.inFront
  have hspans : ∀ r ∈ rs, r.span.start < r.span.stop ∧ r.span.stop ≤ header.start ∧
      (∃ o found, firstOccurrence? (definitionOf (nameOf o)) source = some found ∧
        r.span.start = found.start ∧ r.text = lineOf base o) ∧
      ∀ n, r.span.start < n → n < r.span.stop → StartsLine source n →
        ∀ c ∈ source[n]?, isBlank c = true := by
    intro r hr
    obtain ⟨o, ho⟩ := mem_replacements_iff.1 hr
    obtain ⟨found, hfound, hspan⟩ := Option.map_eq_some_iff.1 ho
    exact ⟨(bounds_of_mem_replacements hr).1, h.stop_le hr,
      ⟨o, found, hfound, by rw [← hspan], by rw [← hspan]⟩,
      fun n hlt hstop hline => isBlank_of_mem_span hr hlt hstop hline⟩
  by_cases hrs : rs = []
  · have hresult : retarget source base = .ok (source.take header.start ++
        definitions base newline ++ newline.text ++ source.drop header.start, 0) := by
      rw [retarget, show replacements source base = [] from hrs, h.table]
    exact ⟨_, by rw [hresult, hrs]; rfl, List.suffix_append _ _, hfront, hspans,
      fun hne => absurd hrs hne, fun _ => rfl⟩
  · have hresult : retarget source base = .ok (splice source 0 rs, rs.length) :=
      retarget_of_replacements rfl hrs
    have hrewrites := (rewrites_of_retarget hresult hrs hfront).1
    refine ⟨_, hresult, ?_, hfront, hspans, fun _ => hrewrites, fun hnil => absurd hnil hrs⟩
    exact hrewrites.suffix (fun r hr => h.stop_le hr) (Nat.zero_le _)

/-- A wrapped helper and a base with an open literal, both without a semicolon. -/
theorem retarget_keeps_around_unclosed :
    let source := ("export const baseImgUrlToken = n =>\r\n  n\r\n" ++
      "export const baseImgUrl = 'img\r\nlet n;\r\nexport const iconMap = \x7b\x7d;\r\n").toList
    let header : Span := ⟨82, 106⟩
    IsLaidOut source header ∧ ∃ out, retarget source "//cdn".toList = .ok (out, 2) ∧
      source.drop header.start <:+ out ∧
      Rewrites 0 source (replacements source "//cdn".toList) out := by
  intro source header
  have hfound : ∀ o ∈ order, ∀ found ∈ firstOccurrence? (definitionOf (nameOf o)) source,
      StartsLine source found.start ∧ found.start < header.start := by
    decide +kernel
  have hlaid : IsLaidOut source header :=
    ⟨by decide +kernel, by decide +kernel, fun o found h => hfound o (mem_order o) found h⟩
  have hlength : (replacements source "//cdn".toList).length = 2 := by decide +kernel
  obtain ⟨out, hout, htable, -, -, hrewrites, -⟩ := retarget_keeps_around "//cdn".toList hlaid
  rw [hlength] at hout
  exact ⟨hlaid, out, hout, htable, hrewrites (List.ne_nil_of_length_pos (by omega))⟩

end IconCatalog.ImageHelper
