import IconCatalog.ImageHelper
import IconCatalog.Enumeration.Reader
import IconCatalog.Proofs.Source.Expression
import IconCatalog.Proofs.Source.Place
import IconCatalog.RemotePattern.Patch
import Mathlib.Data.List.Induction
/-!
The search for matches, told without the search. A match may start where no name is cut and no
comment is open on the line, and it is found there unless an earlier match reaches over that place.
These conditions leave no choice: one list of matches meets them, whatever the pattern, also where
it takes up no character.
-/
namespace IconCatalog.Source
open Text

inductive IsInterior (quote : Char) : Text → Prop where
  | nil : IsInterior quote []
  | char : c ≠ '\\' → c ≠ quote → IsInterior quote t → IsInterior quote (c :: t)
  | escape : IsInterior quote t → IsInterior quote ('\\' :: c :: t)

/-- A text that closes every literal it opens, so that what follows it stands outside literals. -/
inductive IsClosed : Text → Prop where
  | nil : IsClosed []
  | char : Literal.isQuote c = false → IsClosed t → IsClosed (c :: t)
  | literal : Literal.isQuote quote = true → IsInterior quote a → IsClosed t →
      IsClosed (quote :: (a ++ quote :: t))

/-- Two slashes in a row stand outside the literals of a line. -/
def OpensComment (line : Text) : Prop := ∃ a b, line = a ++ (commentMark ++ b) ∧ IsClosed a

theorem IsInterior.foldl_step {quote : Char} {a : Text} (h : IsInterior quote a) :
    a.foldl Literal.step (.inside quote) = .inside quote := by
  induction h with
  | nil => rfl
  | char hb hq _ ih => simpa [Literal.step, hb, hq] using ih
  | escape _ ih => simpa [Literal.step] using ih

theorem IsClosed.foldl_step {t : Text} (h : IsClosed t) :
    t.foldl Literal.step .outside = .outside := by
  induction h with
  | nil => rfl
  | char hq _ ih => simpa [Literal.step, hq] using ih
  | @literal quote a t hq ha _ ih =>
    have hb : quote ≠ '\\' := fun h => by
      rw [h] at hq
      exact absurd hq (by decide)
    rw [List.foldl_cons, List.foldl_append, List.foldl_cons]
    simpa [Literal.step, hq, hb, ha.foldl_step] using ih

def Closes : Literal → Text → Prop
  | .outside, t => IsClosed t
  | .inside q, t => ∃ a u, t = a ++ q :: u ∧ IsInterior q a ∧ IsClosed u
  | .escaped q, t => ∃ c a u, t = c :: (a ++ q :: u) ∧ IsInterior q a ∧ IsClosed u

theorem closes_of_foldl_step {literal : Literal} {t : Text}
    (h : t.foldl Literal.step literal = .outside) : Closes literal t := by
  induction t generalizing literal with
  | nil =>
    obtain rfl : literal = .outside := h
    exact .nil
  | cons c t ih =>
    have hrest := ih h
    cases literal with
    | outside =>
      by_cases hq : Literal.isQuote c = true
      · simp only [Literal.step, hq, if_true] at hrest
        obtain ⟨a, u, rfl, ha, hu⟩ := hrest
        exact .literal hq ha hu
      · simp only [Literal.step, hq] at hrest
        exact .char (by simpa using hq) hrest
    | escaped q =>
      obtain ⟨a, u, rfl, ha, hu⟩ := hrest
      exact ⟨c, a, u, rfl, ha, hu⟩
    | inside q =>
      by_cases hb : c = '\\'
      · subst hb
        simp only [Literal.step, if_true] at hrest
        obtain ⟨d, a, u, rfl, ha, hu⟩ := hrest
        exact ⟨'\\' :: d :: a, u, rfl, .escape ha, hu⟩
      · by_cases hq : c = q
        · subst hq
          simp only [Literal.step, hb, if_false, if_true] at hrest
          exact ⟨[], t, rfl, .nil, hrest⟩
        · simp only [Literal.step, hb, hq, if_false] at hrest
          obtain ⟨a, u, rfl, ha, hu⟩ := hrest
          exact ⟨c :: a, u, rfl, .char hb hq ha, hu⟩

theorem isClosed_iff {t : Text} : IsClosed t ↔ t.foldl Literal.step .outside = .outside :=
  ⟨IsClosed.foldl_step, fun h => show Closes .outside t from closes_of_foldl_step h⟩

theorem Literal.IsProper.foldl_step {literal : Literal} (h : literal.IsProper) (t : Text) :
    (t.foldl Literal.step literal).IsProper :=
  List.foldlRecOn t _ h fun _ hl c _ => hl.step c

theorem isClosed_append_slash {a : Text} : IsClosed (a ++ ['/']) ↔ IsClosed a := by
  rw [isClosed_iff, isClosed_iff, List.foldl_append, List.foldl_cons, List.foldl_nil]
  have hproper := (show Literal.IsProper .outside from trivial).foldl_step a
  have hslash : Literal.isQuote '/' = false := by decide
  cases hl : a.foldl Literal.step .outside with
  | outside => simp [Literal.step, hslash]
  | escaped q => simp [Literal.step]
  | inside q =>
    rw [hl, Literal.IsProper] at hproper
    have hq : '/' ≠ q := fun h => by
      rw [← h, hslash] at hproper
      exact absurd hproper Bool.false_ne_true
    simp [Literal.step, hq]

theorem opensComment_concat_iff {line : Text} {c : Char} :
    OpensComment (line ++ [c]) ↔
      OpensComment line ∨ IsClosed line ∧ c = '/' ∧ line.getLast? = some '/' := by
  constructor
  · rintro ⟨a, b, hsplit, ha⟩
    rcases List.eq_nil_or_concat b with rfl | ⟨b, d, rfl⟩
    · have hend : line ++ [c] = a ++ ['/'] ++ ['/'] := by simpa [commentMark] using hsplit
      obtain ⟨rfl, hc⟩ := List.append_inj' hend rfl
      exact .inr ⟨isClosed_append_slash.2 ha, List.singleton_inj.1 hc, by simp⟩
    · have hend : line ++ [c] = a ++ (commentMark ++ b) ++ [d] := by simpa using hsplit
      obtain ⟨rfl, -⟩ := List.append_inj' hend rfl
      exact .inl ⟨a, b, rfl, ha⟩
  · rintro (⟨a, b, rfl, ha⟩ | ⟨hclosed, rfl, hlast⟩)
    · exact ⟨a, b ++ [c], by simp, ha⟩
    · obtain ⟨a, rfl⟩ := List.getLast?_eq_some_iff.1 hlast
      exact ⟨a, [], by simp [commentMark], isClosed_append_slash.1 hclosed⟩

/-- A match may start behind `u`: it cuts no name, and on its line no comment is open. -/
structure AdmitsMatch (u : Text) : Prop where
  word : ∀ c ∈ u.getLast?, isNameChar c = false
  live : ∀ whole line, u = whole ++ line → EndsLine whole → '\n' ∉ line → ¬OpensComment line

theorem exists_lines (u : Text) :
    ∃ whole line, u = whole ++ line ∧ EndsLine whole ∧ '\n' ∉ line := by
  induction u using List.reverseRecOn with
  | nil => exact ⟨[], [], rfl, .inl rfl, by simp⟩
  | append_singleton u c ih =>
    by_cases hc : c = '\n'
    · exact ⟨u ++ [c], [], by simp, .inr (by simp [hc]), by simp⟩
    · obtain ⟨whole, line, rfl, hwhole, hline⟩ := ih
      exact ⟨whole, line ++ [c], by simp, hwhole, by simp [hline, Ne.symm hc]⟩

theorem LineState.step_of_ne (s : LineState) {c : Char} (hc : c ≠ '\n') :
    s.step c = ⟨s.literal.step c, some c, s.commented ||
      (s.literal = .outside && c = '/' && s.previous = some '/')⟩ := if_neg hc

theorem previous_and_commented {line : Text} (hline : '\n' ∉ line) :
    (line.foldl LineState.step .start).previous = line.getLast? ∧
      ((line.foldl LineState.step .start).commented = true ↔ OpensComment line) := by
  induction line using List.reverseRecOn with
  | nil => exact ⟨rfl, by simp [LineState.start, OpensComment, commentMark]⟩
  | append_singleton line c ih =>
    have hc : c ≠ '\n' := fun h => hline (by simp [h])
    have hrest : '\n' ∉ line := fun h => hline (by simp [h])
    obtain ⟨hprevious, hcommented⟩ := ih hrest
    rw [List.foldl_append, List.foldl_cons, List.foldl_nil, LineState.step_of_ne _ hc]
    refine ⟨by simp, ?_⟩
    simp only [Bool.or_eq_true, Bool.and_eq_true, decide_eq_true_eq]
    rw [opensComment_concat_iff, isClosed_iff, hprevious, literal_foldl_step hrest, hcommented,
      and_assoc]
    rfl

theorem any_isNameChar_previous (u : Text) :
    (u.foldl LineState.step .start).previous.any isNameChar = u.getLast?.any isNameChar := by
  rcases List.eq_nil_or_concat u with rfl | ⟨u, c, rfl⟩
  · rfl
  · rw [List.concat_eq_append, List.getLast?_append, List.foldl_append]
    by_cases hc : c = '\n'
    · subst hc
      rfl
    · rw [List.foldl_cons, List.foldl_nil, LineState.step_of_ne _ hc]
      rfl

theorem admits_iff {u : Text} : (u.foldl LineState.step .start).admits = true ↔ AdmitsMatch u := by
  have hword : (u.foldl LineState.step .start).previous.any isNameChar = false ↔
      ∀ c ∈ u.getLast?, isNameChar c = false := by
    rw [any_isNameChar_previous]
    cases u.getLast? <;> simp
  have hlive {whole line : Text} (hu : u = whole ++ line) (hwhole : EndsLine whole)
      (hline : '\n' ∉ line) :
      (u.foldl LineState.step .start).commented = true ↔ OpensComment line := by
    rw [hu, List.foldl_append, hwhole.foldl_step]
    exact (previous_and_commented hline).2
  simp only [LineState.admits, Bool.and_eq_true, Bool.not_eq_true', hword]
  constructor
  · rintro ⟨hfree, hlast⟩
    refine ⟨hlast, fun whole line hu hwhole hline hopens => ?_⟩
    rw [(hlive hu hwhole hline).2 hopens] at hfree
    exact absurd hfree Bool.false_ne_true.symm
  · intro h
    obtain ⟨whole, line, hu, hwhole, hline⟩ := exists_lines u
    refine ⟨?_, h.word⟩
    rw [← Bool.not_eq_true, hlive hu hwhole hline]
    exact h.live whole line hu hwhole hline

variable {p : Pattern} {s : LineState} {position resume : Nat}

theorem exists_of_mem_occurrencesFrom {t : Text} {span : Span}
    (h : span ∈ occurrencesFrom p s position resume t) :
    ∃ u v r, t = u ++ v ∧ v ≠ [] ∧ (u.foldl LineState.step s).admits = true ∧ p v = some r ∧
      resume ≤ span.start ∧
      span = ⟨position + u.length, position + u.length + (v.length - r.length)⟩ := by
  induction t generalizing s position resume with
  | nil => exact nomatch h
  | cons c t ih =>
    have hlater {resume' : Nat} (hr : resume ≤ resume')
        (hmem : span ∈ occurrencesFrom p (s.step c) (position + 1) resume' t) :
        ∃ u v r, c :: t = u ++ v ∧ v ≠ [] ∧ (u.foldl LineState.step s).admits = true ∧
          p v = some r ∧ resume ≤ span.start ∧
          span = ⟨position + u.length, position + u.length + (v.length - r.length)⟩ := by
      obtain ⟨u, v, r, rfl, hv, hs, hm, hle, hspan⟩ := ih hmem
      have hlength : position + 1 + u.length = position + (c :: u).length := by
        rw [List.length_cons]
        omega
      exact ⟨c :: u, v, r, rfl, hv, hs, hm, Nat.le_trans hr hle, hlength ▸ hspan⟩
    rcases occurrencesFrom_cons_cases p s position resume c t with
      ⟨r, stop, hr, hs, hm, rfl, heq⟩ | ⟨-, heq⟩
    · rw [heq, List.mem_cons] at h
      cases h with
      | inl h => exact ⟨[], c :: t, r, rfl, List.cons_ne_nil c t, hs, hm, h ▸ hr, h⟩
      | inr h => exact hlater (by omega) h
    · exact hlater (Nat.le_refl _) (heq ▸ h)

theorem pairwise_occurrencesFrom {t : Text} : (occurrencesFrom p s position resume t).Pairwise
    fun a b => a.start < b.start ∧ a.stop ≤ b.start := by
  induction t generalizing s position resume with
  | nil => exact .nil
  | cons c t ih =>
    rcases occurrencesFrom_cons_cases p s position resume c t with
      ⟨r, stop, -, -, -, -, heq⟩ | ⟨-, heq⟩
    · rw [heq]
      refine .cons (fun b hb => ?_) ih
      obtain ⟨u, v, r, -, -, -, -, hle, rfl⟩ := exists_of_mem_occurrencesFrom hb
      exact ⟨by simp only; omega, hle⟩
    · exact heq ▸ ih

theorem exists_mem_occurrencesFrom {u v r : Text} (hv : v ≠ [])
    (hs : (u.foldl LineState.step s).admits = true) (hm : p v = some r)
    (hr : resume ≤ position + u.length)
    (hclear : ∀ span ∈ occurrencesFrom p s position resume (u ++ v),
      span.start < position + u.length → span.stop ≤ position + u.length) :
    ∃ span ∈ occurrencesFrom p s position resume (u ++ v), span.start = position + u.length := by
  induction u generalizing s position resume with
  | nil =>
    obtain ⟨c, v, rfl⟩ := List.exists_cons_of_ne_nil hv
    rcases occurrencesFrom_cons_cases p s position resume c v with
      ⟨r', stop, -, -, -, -, heq⟩ | ⟨hnone, -⟩
    · rw [List.nil_append, heq]
      exact ⟨_, List.mem_cons_self, rfl⟩
    · rw [hnone hr hs] at hm
      exact nomatch hm
  | cons c u ih =>
    have hlength : position + (c :: u).length = position + 1 + u.length := by
      rw [List.length_cons]
      omega
    rw [hlength] at hr hclear ⊢
    rw [List.cons_append] at hclear ⊢
    rcases occurrencesFrom_cons_cases p s position resume c (u ++ v) with
      ⟨r', stop, -, -, -, -, heq⟩ | ⟨-, heq⟩
    · rw [heq] at hclear ⊢
      -- The match in front reaches no further than the place, so the search has resumed by then.
      obtain ⟨hstop, hclear⟩ := List.forall_mem_cons.1 hclear
      obtain ⟨span, hmem, hstart⟩ := ih hs (hstop (by simp only; omega)) hclear
      exact ⟨span, .tail _ hmem, hstart⟩
    · rw [heq] at hclear ⊢
      exact ih hs hr hclear

/-- What a search for a pattern comes to: the spans stand one behind the other, one starts at each
character where a match may start unless an earlier span reaches over it, and each goes as far as
the pattern does from there. -/
structure AreMatches (p : Pattern) (t : Text) (spans : List Span) : Prop where
  ascending : spans.Pairwise fun a b => a.start < b.start ∧ a.stop ≤ b.start
  start_iff : ∀ o, (∃ span ∈ spans, span.start = o) ↔ o < t.length ∧ AdmitsMatch (t.take o) ∧
    (∃ r, p (t.drop o) = some r) ∧ ∀ span ∈ spans, span.start < o → span.stop ≤ o
  stop : ∀ span ∈ spans, span.start ≤ span.stop ∧ span.stop ≤ t.length ∧
    p (t.drop span.start) = some (t.drop span.stop)

theorem stop_le_of_pairwise {spans : List Span}
    (h : spans.Pairwise fun a b => a.start < b.start ∧ a.stop ≤ b.start) {a b : Span}
    (ha : a ∈ spans) (hb : b ∈ spans) (hlt : a.start < b.start) : a.stop ≤ b.start := by
  induction h with
  | nil => exact nomatch ha
  | cons hfirst _ ih =>
    rcases List.mem_cons.1 ha with rfl | ha' <;> rcases List.mem_cons.1 hb with rfl | hb'
    · exact absurd hlt (Nat.lt_irrefl _)
    · exact (hfirst b hb').2
    · exact absurd (hfirst a ha').1 (Nat.lt_asymm hlt)
    · exact ih ha' hb'

theorem areMatches_occurrences (hp : p.LeavesSuffix) (t : Text) :
    AreMatches p t (occurrences p t) where
  ascending := pairwise_occurrencesFrom
  start_iff o := by
    constructor
    · rintro ⟨span, hmem, rfl⟩
      obtain ⟨u, v, r, ht, hv, hs, hm, -, hspan⟩ := exists_of_mem_occurrencesFrom hmem
      have hstart : span.start = u.length := by
        rw [hspan]
        exact Nat.zero_add _
      refine ⟨?_, ?_, ⟨r, ?_⟩, fun b hb hlt => ?_⟩
      · have hlength := List.length_pos_iff.2 hv
        rw [hstart, ht, List.length_append]
        omega
      · rw [hstart, ht, List.take_left]
        exact admits_iff.1 hs
      · rw [hstart, ht, List.drop_left]
        exact hm
      · exact stop_le_of_pairwise pairwise_occurrencesFrom hb hmem hlt
    · rintro ⟨hlt, hs, ⟨r, hm⟩, hclear⟩
      have hlength : 0 + (t.take o).length = o := by
        rw [List.length_take]
        omega
      have hne : t.drop o ≠ [] := fun h => absurd (List.drop_eq_nil_iff.1 h) (by omega)
      have hfound := @exists_mem_occurrencesFrom p .start 0 0 (t.take o) (t.drop o) r hne
        (admits_iff.2 hs) hm (Nat.zero_le _)
      rw [List.take_append_drop, hlength] at hfound
      exact hfound hclear
  stop span hmem := by
    obtain ⟨u, v, r, rfl, -, -, hm, -, rfl⟩ := exists_of_mem_occurrencesFrom hmem
    obtain ⟨w, rfl⟩ := hp hm
    have hstop : u.length + ((w ++ r).length - r.length) = (u ++ w).length := by
      simp only [List.length_append]
      omega
    simp only [Nat.zero_add]
    rw [hstop, List.drop_left, hm, ← List.append_assoc, List.drop_left]
    exact ⟨by simp, by simp, rfl⟩

namespace AreMatches
variable {t : Text} {as bs : List Span}

theorem nodup (ha : AreMatches p t as) : as.Nodup :=
  ha.ascending.imp fun {a b} h heq => by
    rw [heq] at h
    exact absurd h.1 (Nat.lt_irrefl _)

theorem eq_of_start (ha : AreMatches p t as) (hb : AreMatches p t bs) {a b : Span} (hmem : a ∈ as)
    (hmem' : b ∈ bs) (hstart : a.start = b.start) : a = b := by
  obtain ⟨-, hle, hm⟩ := ha.stop a hmem
  obtain ⟨-, hle', hm'⟩ := hb.stop b hmem'
  have hrest := congrArg List.length (Option.some.inj (hm.symm.trans (hstart ▸ hm')))
  rw [List.length_drop, List.length_drop] at hrest
  have hstop : a.stop = b.stop := by omega
  cases a
  cases b
  exact Span.mk.injEq .. ▸ ⟨hstart, hstop⟩

theorem mem_of_mem (ha : AreMatches p t as) (hb : AreMatches p t bs) {a : Span}
    (hbefore : ∀ b, b.start < a.start → (b ∈ as ↔ b ∈ bs)) (hmem : a ∈ as) : a ∈ bs := by
  obtain ⟨hlt, hs, hm, hclear⟩ := (ha.start_iff a.start).1 ⟨a, hmem, rfl⟩
  obtain ⟨b, hmem', hstart⟩ := (hb.start_iff a.start).2
    ⟨hlt, hs, hm, fun b hb hlt => hclear b ((hbefore b hlt).2 hb) hlt⟩
  rwa [ha.eq_of_start hb hmem hmem' hstart.symm]

/-- There is one list of matches: from the left on, each start is decided by those before it. -/
theorem unique (ha : AreMatches p t as) (hb : AreMatches p t bs) : as = bs := by
  have hmem (a : Span) : a ∈ as ↔ a ∈ bs := by
    induction ho : a.start using Nat.strongRecOn generalizing a with
    | ind o ih =>
      subst ho
      have hbefore (b : Span) (hlt : b.start < a.start) : b ∈ as ↔ b ∈ bs := ih _ hlt b rfl
      exact ⟨ha.mem_of_mem hb hbefore, hb.mem_of_mem ha fun b hlt => (hbefore b hlt).symm⟩
  refine List.Perm.eq_of_pairwise (fun a b _ _ hab hba => ?_) ha.ascending hb.ascending
    ((List.perm_ext_iff_of_nodup ha.nodup hb.nodup).2 hmem)
  exact absurd hba.1 (Nat.lt_asymm hab.1)

end AreMatches

theorem leavesSuffix_searched : Table.header.LeavesSuffix ∧
    (∀ category, (Enumeration.header category).LeavesSuffix) ∧
    (∀ name, (ImageHelper.definitionOf name).LeavesSuffix) ∧
    (∀ name bracket, (RemotePattern.property name bracket).LeavesSuffix) ∧
    RemotePattern.exportsOpening.LeavesSuffix ∧ RemotePattern.defaultOpening.LeavesSuffix ∧
    RemotePattern.bindingOpening.LeavesSuffix := by
  refine ⟨?_, fun category => ?_, fun name => ?_, fun name bracket => ?_, ?_, ?_, ?_⟩ <;>
    exact Pattern.leavesSuffix_sequence (by simp)

/-- The search finds matches from the left without overlap, and every one that may start at its
place and that no earlier one reaches over. No list but the one it gives is such. -/
theorem occurrences_complete {p : Pattern} (hp : p.LeavesSuffix) (t : Text) :
    AreMatches p t (occurrences p t) ∧ ∀ spans, AreMatches p t spans → spans = occurrences p t :=
  ⟨areMatches_occurrences hp t, fun _ h => h.unique (areMatches_occurrences hp t)⟩

/-- A heading behind a literal with slashes is found, but none in a comment or within a name; and
layout, which may be absent, is found in places where there is none. -/
theorem occurrences_complete_heading :
    let source : Text := ("// export const iconMap = \x7b\nreexport const iconMap = \x7b\n" ++
      "const cdn = \x22https://é\\\x22\x22; export const iconMap = \x7b").toList
    (Table.header.LeavesSuffix ∧ AreMatches Table.header source [⟨82, 106⟩] ∧
      ∀ spans, AreMatches Table.header source spans → spans = [⟨82, 106⟩]) ∧
    Pattern.gap.LeavesSuffix ∧ AreMatches .gap "= a;".toList [⟨0, 0⟩, ⟨1, 2⟩, ⟨2, 2⟩] ∧
      ∀ spans, AreMatches .gap "= a;".toList spans → spans = [⟨0, 0⟩, ⟨1, 2⟩, ⟨2, 2⟩] := by
  intro source
  have hheading : occurrences Table.header source = [⟨82, 106⟩] := by decide
  have hgap : occurrences .gap "= a;".toList = [⟨0, 0⟩, ⟨1, 2⟩, ⟨2, 2⟩] := by decide
  have hmatches := occurrences_complete leavesSuffix_searched.1 source
  have hempty := occurrences_complete Pattern.leavesSuffix_gap "= a;".toList
  rw [hheading] at hmatches
  rw [hgap] at hempty
  exact ⟨⟨leavesSuffix_searched.1, hmatches⟩, Pattern.leavesSuffix_gap, hempty⟩

end IconCatalog.Source
