import IconCatalog.Proofs.Source.Occurrence
import IconCatalog.Proofs.Text.Search
import IconCatalog.Table.Reader
/-!
The headings of a lookup table, and texts in which none of them starts.
-/
namespace IconCatalog.Table
open Text Source Pattern

def endsType : List Char := ['=', ';', '\x7b']

inductive IsHeading : Text → Prop where
  | mk : IsSpace v → IsSpace w → IsGap a → m = [] ∨ IsTypeMark endsType m → IsGap b →
      IsHeading ("export".toList ++ v ++ "const".toList ++ w ++ declaredName ++ a ++ m ++ '=' :: b)

theorem header_append {u : Text} (h : IsHeading u) (rest : Text) :
    header (u ++ '\x7b' :: rest) = some rest := by
  cases h with
  | @mk v w a m b hv hw ha hm hb =>
    have hmark : optional (typeMark endsType) (skipGap (m ++ '=' :: (b ++ '\x7b' :: rest))) =
        some ('=' :: (b ++ '\x7b' :: rest)) := by
      cases hm with
      | inl h =>
        subst h
        rfl
      | inr hm =>
        obtain ⟨x, hx, -, -⟩ := id hm
        have hskip : skipGap (m ++ '=' :: (b ++ '\x7b' :: rest)) =
            m ++ '=' :: (b ++ '\x7b' :: rest) := by
          rw [hx]
          exact skipGap_cons (by decide) _
        rw [hskip]
        exact optional_eq_some_iff.2 (.inl (typeMark_append hm (by decide) _))
    have hequals : char '=' ('=' :: (b ++ '\x7b' :: rest)) = some (b ++ '\x7b' :: rest) :=
      char?_cons_self ..
    have hbrace : char '\x7b' (skipGap (b ++ '\x7b' :: rest)) = some rest := by
      rw [skipGap_gap_cons hb (by decide)]
      exact char?_cons_self ..
    rw [← skipGap_append ha] at hmark
    simp only [header, sequence_cons_eq_some_iff, List.append_assoc, List.cons_append]
    exact ⟨_, after?_append .., _, space_append hv _, _, word_skipGap (by decide) "onst".toList _,
      _, space_append hw _, _, word_skipGap (by decide) "conMap".toList _, _, rfl, _, hmark, _,
      hequals, _, rfl, _, hbrace, rfl⟩

theorem exists_heading {t r : Text} (h : header t = some r) :
    ∃ u, IsHeading u ∧ t = u ++ '\x7b' :: r := by
  simp only [header, sequence_cons_eq_some_iff] at h
  obtain ⟨t₁, h₁, t₂, h₂, t₃, h₃, t₄, h₄, t₅, h₅, t₆, h₆, t₇, h₇, t₈, h₈, t₉, h₉, t₁₀, h₁₀, hr⟩ := h
  obtain ⟨v, hv, rfl⟩ := exists_space h₂
  obtain ⟨w, hw, rfl⟩ := exists_space h₄
  obtain ⟨a, ha, ht₅⟩ := exists_gap t₅
  obtain ⟨b, hb, ht₈⟩ := exists_gap t₈
  obtain rfl : skipGap t₅ = t₆ := Option.some.inj h₆
  obtain rfl : skipGap t₈ = t₉ := Option.some.inj h₉
  obtain rfl : t₁₀ = r := Option.some.inj hr
  rw [char?_eq_some_iff.1 h₁₀] at ht₈
  have hm : ∃ m, (m = [] ∨ IsTypeMark endsType m) ∧ skipGap t₅ = m ++ t₇ := by
    rcases optional_eq_some_iff.1 h₇ with h₇ | ⟨-, h₇⟩
    · obtain ⟨m, hm, ht⟩ := exists_typeMark h₇
      exact ⟨m, .inr hm, ht⟩
    · exact ⟨[], .inl rfl, h₇⟩
  obtain ⟨m, hm, ht₆⟩ := hm
  refine ⟨_, .mk hv hw ha hm hb, ?_⟩
  rw [after?_eq_some_iff.1 h₁, after?_eq_some_iff.1 h₃, after?_eq_some_iff.1 h₅, ht₅, ht₆,
    char?_eq_some_iff.1 h₈, ht₈]
  simp

theorem header_endsAtBrace : header.EndsAtBrace IsHeading where
  eq_some_iff := fun {t r} => by
    constructor
    · exact exists_heading
    · intro ⟨u, hu, ht⟩
      rw [ht]
      exact header_append hu r
  ne_nil := fun h => by cases h; simp
  no_brace := fun {u} h => by
    cases h with
    | @mk v w a m b hv hw ha hm hb =>
      have hmark : '\x7b' ∉ m := by
        rcases hm with rfl | ⟨x, rfl, -, hx⟩
        · simp
        · intro hmem
          cases List.mem_cons.1 hmem with
          | inl h => exact absurd h (by decide)
          | inr h => exact absurd (hx _ h) (by decide)
      simp only [List.mem_append, List.mem_cons, not_or]
      exact ⟨⟨⟨⟨⟨⟨⟨by decide, not_mem_of_isGap hv.2 (by decide)⟩, by decide⟩,
        not_mem_of_isGap hw.2 (by decide)⟩, by decide⟩, not_mem_of_isGap ha (by decide)⟩, hmark⟩,
        by decide, not_mem_of_isGap hb (by decide)⟩

theorem IsHeading.last {u x g : Text} {c : Char} (h : IsHeading u) (hu : u = x ++ c :: g)
    (hg : IsGap g) (hc : isGap c = false) : c = '=' := by
  cases h with
  | @mk v w a m b hv hw ha hm hb =>
    have hrev := congrArg (fun t => (t.reverse.dropWhile isGap).head?) hu
    have hleft (y : Text) : ((y ++ '=' :: b).reverse.dropWhile isGap).head? = some '=' := by
      rw [List.reverse_append, List.reverse_cons, List.append_assoc,
        List.dropWhile_append_of_pos fun d hd => hb d (List.mem_reverse.1 hd)]
      rfl
    have hright : ((x ++ c :: g).reverse.dropWhile isGap).head? = some c := by
      rw [List.reverse_append, List.reverse_cons, List.append_assoc,
        List.dropWhile_append_of_pos fun d hd => hg d (List.mem_reverse.1 hd)]
      simp [hc]
    rw [hleft, hright] at hrev
    exact (Option.some.inj hrev).symm

theorem header_colon {x g : Text} (hx : '\x7b' ∉ x) (hg : IsGap g) (t : Text) :
    header (x ++ ':' :: (g ++ '\x7b' :: t)) = none := by
  cases hm : header (x ++ ':' :: (g ++ '\x7b' :: t)) with
  | none => rfl
  | some r =>
    have hbrace : '\x7b' ∉ x ++ ':' :: g := by
      simp only [List.mem_append, List.mem_cons, not_or]
      exact ⟨hx, by decide, not_mem_of_isGap hg (by decide)⟩
    rw [show x ++ ':' :: (g ++ '\x7b' :: t) = (x ++ ':' :: g) ++ '\x7b' :: t by simp] at hm
    have hheading := ((header_endsAtBrace.brace_iff hbrace).1 hm).1
    exact absurd (hheading.last rfl hg (by decide)) (by decide)

theorem IsHeading.words {u : Text} (h : IsHeading u) : ∃ v w more, IsSpace v ∧ IsSpace w ∧
    u = "export".toList ++ v ++ "const".toList ++ w ++ declaredName ++ more := by
  cases h with
  | @mk v w a m b hv hw => exact ⟨v, w, a ++ m ++ '=' :: b, hv, hw, by simp⟩

/-- A text that lacks the name of the table and does not end amid words. -/
theorem isInert_of_no_name {z : Text} {c : Char} (hname : ¬declaredName <:+: z)
    (hlast : z.getLast? = some c) (hchar : isNameChar c = false) (hgap : isGap c = false) :
    IsInert header z := by
  intro u v hz hv rest
  cases hm : header (v ++ rest) with
  | none => rfl
  | some r =>
    obtain ⟨heading, hheading, hsplit⟩ := exists_heading hm
    obtain ⟨x, y, more, hx, hy, hu⟩ := hheading.words
    let k := "export".toList ++ x ++ "const".toList ++ y ++ declaredName
    have hk : ¬k <:+: z := fun h => hname (List.IsInfix.trans (List.suffix_append _ _).isInfix h)
    have hc (l m : Text) (hl : k = l ++ m) (_ : m ≠ []) : l.getLast? ≠ some c := by
      intro h
      have hmem : c ∈ k := by rw [hl]; exact List.mem_append_left m (List.mem_of_getLast? h)
      have hword (w : Text) (hw : w.all isNameChar = true) : c ∉ w := fun h => by
        rw [List.all_eq_true.1 hw c h] at hchar
        exact absurd hchar (by simp)
      simp only [k, List.mem_append] at hmem
      rcases hmem with (((h | h) | h) | h) | h
      · exact hword _ (by decide) h
      · exact not_mem_of_isGap hx.2 hgap h
      · exact hword _ (by decide) h
      · exact not_mem_of_isGap hy.2 hgap h
      · exact hword _ (by decide) h
    have hstart : v ++ rest = k ++ (more ++ '\x7b' :: r) := by rw [hsplit, hu, List.append_assoc]
    exact absurd hstart (not_prefix_of_last hz hv hlast hk hc)

/-- The first word of a heading is nowhere in the text with layout behind it. -/
def IsQuiet (z : Text) : Prop := ∀ c, isGap c = true → ¬"export".toList ++ [c] <:+: z

theorem isQuiet_of_no_gap {z : Text} (h : ∀ c ∈ z, isGap c = false) : IsQuiet z := by
  intro c hc hz
  have hmem : c ∈ z := hz.subset (by simp)
  rw [h c hmem] at hc
  exact absurd hc (by simp)

theorem isQuiet_of_not_mem {z : Text} (h : 'x' ∉ z) : IsQuiet z :=
  fun _ _ hz => h (hz.subset (by simp))

theorem isQuiet_append_quote {y z : Text} (hy : IsQuiet y) (hz : IsQuiet z) :
    IsQuiet (y ++ doubleQuote :: z) := by
  intro c hc h
  have hquote : doubleQuote ∉ "export".toList ++ [c] := by
    intro hmem
    cases List.mem_append.1 hmem with
    | inl hmem => exact absurd hmem (by decide)
    | inr hmem =>
      obtain rfl := List.mem_singleton.1 hmem
      exact absurd hc (by decide)
  cases (infix_append_cons_iff hquote).1 h with
  | inl h => exact hy c hc h
  | inr h => exact hz c hc h

theorem isInert_of_isQuiet {z : Text} (hz : IsQuiet z) {c : Char} (hlast : z.getLast? = some c)
    (hchar : c ∉ "export".toList) : IsInert header z := by
  intro u v huv hv rest
  cases hm : header (v ++ rest) with
  | none => rfl
  | some r =>
    obtain ⟨heading, hheading, hsplit⟩ := exists_heading hm
    obtain ⟨x, y, more, hx, hy, hu⟩ := hheading.words
    cases x with
    | nil => exact absurd rfl hx.1
    | cons g x =>
      have hg : isGap g = true := hx.2 g List.mem_cons_self
      have hc (l m : Text) (hl : "export".toList ++ [g] = l ++ m) (hm : m ≠ []) :
          l.getLast? ≠ some c := by
        intro h
        have hword : l <+: "export".toList := by
          have hlen : l.length ≤ "export".toList.length := by
            have := congrArg List.length hl
            have := List.length_pos_iff.2 hm
            simp only [List.length_append, List.length_cons, List.length_nil] at *
            omega
          exact List.prefix_of_prefix_length_le ⟨m, hl.symm⟩ ⟨[g], rfl⟩ hlen
        exact hchar (hword.subset (List.mem_of_getLast? h))
      have hstart : v ++ rest = "export".toList ++ [g] ++
          (x ++ "const".toList ++ y ++ declaredName ++ more ++ '\x7b' :: r) := by
        rw [hsplit, hu]
        simp
      exact absurd hstart (not_prefix_of_last huv hv hlast (hz g hg) hc)

end IconCatalog.Table
