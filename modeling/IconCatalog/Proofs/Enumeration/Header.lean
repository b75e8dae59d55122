import IconCatalog.Proofs.Source.Occurrence
import IconCatalog.Proofs.Text.Search
import IconCatalog.Enumeration.Reader
/-!
The headings of an enumeration. They consist of words and layout, so that no other mark can stand
between the first word and the brace.
-/
namespace IconCatalog.Enumeration
open Text Source Pattern
variable {category : Category}

inductive IsHeading (category : Category) : Text → Prop where
  | mk : IsSpace v → k = [] ∨ (∃ w, IsSpace w ∧ k = "const".toList ++ w) → IsSpace x → IsGap y →
      IsHeading category
        ("export".toList ++ v ++ k ++ "enum".toList ++ x ++ category.enumName ++ y)

theorem exists_enumName (category : Category) :
    ∃ c n, category.enumName = c :: n ∧ isGap c = false := by
  cases category <;> exact ⟨_, _, rfl, by decide⟩

theorem header_append {u : Text} (h : IsHeading category u) (rest : Text) :
    header category (u ++ '\x7b' :: rest) = some rest := by
  cases h with
  | @mk v k x y hv hk hx hy =>
    obtain ⟨c, n, hname, hc⟩ := exists_enumName category
    let after := "enum".toList ++ (x ++ (category.enumName ++ (y ++ '\x7b' :: rest)))
    have hconst : optional (sequence [word "const".toList, space]) (skipGap (k ++ after)) =
        some (skipGap after) := by
      rcases hk with rfl | ⟨w, hw, rfl⟩
      · rfl
      · refine optional_eq_some_iff.2 (.inl ?_)
        simp only [sequence_cons_eq_some_iff, List.append_assoc]
        exact ⟨_, word_skipGap (by decide) "onst".toList _, _, space_append hw _, rfl⟩
    have henum : word "enum".toList (skipGap after) =
        some (x ++ (category.enumName ++ (y ++ '\x7b' :: rest))) :=
      word_skipGap (by decide) "num".toList _
    have hword : word category.enumName (skipGap (category.enumName ++ (y ++ '\x7b' :: rest))) =
        some (y ++ '\x7b' :: rest) := by
      rw [hname]
      exact word_skipGap hc n _
    have hbrace : char '\x7b' (skipGap (y ++ '\x7b' :: rest)) = some rest := by
      rw [skipGap_gap_cons hy (by decide)]
      exact char?_cons_self ..
    simp only [header, sequence_cons_eq_some_iff, List.append_assoc]
    exact ⟨_, after?_append .., _, space_append hv _, _, hconst, _, henum, _, space_append hx _, _,
      hword, _, rfl, _, hbrace, rfl⟩

theorem exists_heading {t r : Text} (h : header category t = some r) :
    ∃ u, IsHeading category u ∧ t = u ++ '\x7b' :: r := by
  simp only [header, sequence_cons_eq_some_iff] at h
  obtain ⟨t₁, h₁, t₂, h₂, t₃, h₃, t₄, h₄, t₅, h₅, t₆, h₆, t₇, h₇, t₈, h₈, hr⟩ := h
  obtain ⟨v, hv, rfl⟩ := exists_space h₂
  obtain ⟨x, hx, rfl⟩ := exists_space h₅
  obtain ⟨y, hy, ht₆⟩ := exists_gap t₆
  obtain rfl : skipGap t₆ = t₇ := Option.some.inj h₇
  obtain rfl : t₈ = r := Option.some.inj hr
  rw [char?_eq_some_iff.1 h₈] at ht₆
  have hk : ∃ k, (k = [] ∨ ∃ w, IsSpace w ∧ k = "const".toList ++ w) ∧ t₂ = k ++ t₃ := by
    rcases optional_eq_some_iff.1 h₃ with h₃ | ⟨-, h₃⟩
    · simp only [sequence_cons_eq_some_iff] at h₃
      obtain ⟨u, hu, u', hu', hr₃⟩ := h₃
      obtain ⟨w, hw, rfl⟩ := exists_space hu'
      obtain rfl : u' = t₃ := Option.some.inj hr₃
      exact ⟨"const".toList ++ w, .inr ⟨w, hw, rfl⟩, by rw [after?_eq_some_iff.1 hu]; simp⟩
    · exact ⟨[], .inl rfl, h₃⟩
  obtain ⟨k, hk, ht₂⟩ := hk
  refine ⟨_, .mk hv hk hx hy, ?_⟩
  rw [after?_eq_some_iff.1 h₁, ht₂, after?_eq_some_iff.1 h₄, after?_eq_some_iff.1 h₆, ht₆]
  simp

theorem IsHeading.chars {u : Text} (h : IsHeading category u) {c : Char} (hc : c ∈ u) :
    isNameChar c = true ∨ isGap c = true := by
  have hword {w : Text} (hw : w.all isNameChar = true) (hc : c ∈ w) : isNameChar c = true :=
    List.all_eq_true.1 hw c hc
  cases h with
  | @mk v k x y hv hk hx hy =>
    have hconst (hc : c ∈ k) : isNameChar c = true ∨ isGap c = true := by
      rcases hk with rfl | ⟨w, hw, rfl⟩
      · exact absurd hc (by simp)
      · exact (List.mem_append.1 hc).imp (hword (by decide)) (hw.2 c)
    simp only [List.mem_append] at hc
    rcases hc with (((((hc | hc) | hc) | hc) | hc) | hc) | hc
    · exact .inl (hword (by decide) hc)
    · exact .inr (hv.2 c hc)
    · exact hconst hc
    · exact .inl (hword (by decide) hc)
    · exact .inr (hx.2 c hc)
    · exact .inl (hword (by cases category <;> decide) hc)
    · exact .inr (hy c hc)

theorem header_endsAtBrace (category : Category) :
    (header category).EndsAtBrace (IsHeading category) where
  eq_some_iff := fun {t r} => by
    constructor
    · exact exists_heading
    · intro ⟨u, hu, ht⟩
      rw [ht]
      exact header_append hu r
  ne_nil := fun h => by cases h; simp
  no_brace := fun h hmem => by
    cases h.chars hmem with
    | inl h => exact absurd h (by decide)
    | inr h => exact absurd h (by decide)

/-- No heading reaches over a mark that comes before the first brace. -/
theorem header_mark {w : Text} {c : Char} (hw : '\x7b' ∉ w) (hc : c ∈ w)
    (hchar : isNameChar c = false) (hgap : isGap c = false) (rest : Text) :
    header category (w ++ rest) = none := by
  cases hm : header category (w ++ rest) with
  | none => rfl
  | some r =>
    obtain ⟨u, hu, hsplit⟩ := exists_heading hm
    have hmem : c ∈ u := by
      rcases List.append_eq_append_iff.1 hsplit with ⟨a, rfl, -⟩ | ⟨a, rfl, ha⟩
      · exact List.mem_append_left a hc
      · cases a with
        | nil => simpa using hc
        | cons d a =>
          obtain ⟨rfl, -⟩ := List.cons.inj ha
          exact absurd (by simp) hw
    cases hu.chars hmem with
    | inl h =>
      rw [hchar] at h
      exact absurd h (by simp)
    | inr h =>
      rw [hgap] at h
      exact absurd h (by simp)

theorem header_gap {c : Char} (hc : isGap c = true) (t : Text) :
    header category (c :: t) = none := by
  cases hm : header category (c :: t) with
  | none => rfl
  | some r =>
    obtain ⟨u, hu, hsplit⟩ := exists_heading hm
    cases hu with
    | mk hv =>
      obtain ⟨rfl, -⟩ := List.cons.inj hsplit
      exact absurd hc (by decide)

theorem isInert_of_isGap {z : Text} (hz : IsGap z) : IsInert (header category) z := by
  intro u v huv hv rest
  cases v with
  | nil => exact absurd rfl hv
  | cons c v => exact header_gap (hz c (by rw [huv]; simp)) _

theorem isInert_of_mark {y g : Text} {c : Char} (hy : '\x7b' ∉ y ++ [c])
    (hchar : isNameChar c = false) (hgap : isGap c = false) (hg : IsGap g) :
    IsInert (header category) (y ++ [c] ++ g) := by
  refine IsInert.append (fun u v huv hv rest => ?_) (isInert_of_isGap hg)
  have hlast : v.getLast? = some c := by
    rw [← getLast?_suffix huv hv]
    simp
  refine header_mark (fun h => hy ?_) (List.mem_of_getLast? hlast) hchar hgap rest
  rw [huv]
  exact List.mem_append_right u h

end IconCatalog.Enumeration
