import IconCatalog.Text.Search
/-!
Where a text occurs in one that is put together from parts: in one of the parts, unless it can reach
over the seam between them.
-/
namespace IconCatalog.Text

theorem infix_append_cons_iff {k a b : Text} {c : Char} (hc : c ∉ k) :
    k <:+: a ++ c :: b ↔ k <:+: a ∨ k <:+: b := by
  have hcons : k <:+: c :: b ↔ k <:+: b := by
    rw [List.infix_cons_iff]
    constructor
    · intro h
      cases h with
      | inl h =>
        cases k with
        | nil => exact List.nil_infix
        | cons d k =>
          obtain ⟨rfl, -⟩ := List.cons_prefix_cons.1 h
          exact absurd List.mem_cons_self hc
      | inr h => exact h
    · exact .inr
  rw [List.infix_append_iff_ne_nil, hcons]
  constructor
  · intro h
    rcases h with h | h | ⟨l, m, -, hm, rfl, -, hpre⟩
    · exact .inl h
    · exact .inr h
    · cases m with
      | nil => exact absurd rfl hm
      | cons d m =>
        obtain ⟨rfl, -⟩ := List.cons_prefix_cons.1 hpre
        exact absurd (by simp) hc
  · intro h
    cases h with
    | inl h => exact .inl h
    | inr h => exact .inr (.inl h)

theorem pair_infix_append_iff {a b : Text} {c d : Char} :
    [c, d] <:+: a ++ b ↔
      [c, d] <:+: a ∨ [c, d] <:+: b ∨ a.getLast? = some c ∧ b.head? = some d := by
  rw [List.infix_append_iff_ne_nil]
  refine or_congr_right (or_congr_right ⟨?_, ?_⟩)
  · intro ⟨l, m, hl, hm, hlm, hsuf, hpre⟩
    obtain ⟨rfl, rfl⟩ : l = [c] ∧ m = [d] := by
      cases l with
      | nil => exact absurd rfl hl
      | cons x l =>
        cases l with
        | nil => simp_all
        | cons y l => simp_all
    obtain ⟨x, rfl⟩ := hsuf
    obtain ⟨y, rfl⟩ := hpre
    simp
  · intro ⟨ha, hb⟩
    obtain ⟨x, rfl⟩ := List.getLast?_eq_some_iff.1 ha
    obtain ⟨y, rfl⟩ := List.head?_eq_some_iff.1 hb
    exact ⟨[c], [d], by simp, by simp, rfl, ⟨x, rfl⟩, ⟨y, rfl⟩⟩

theorem not_pair_infix_replace {a g z b : Text} {c d : Char} (h : ¬[c, d] <:+: a ++ (g ++ b))
    (hz : c ∉ z) (hne : z ≠ []) (hhead : z.head? = some d → g.head? = some d) :
    ¬[c, d] <:+: a ++ (z ++ b) := by
  rw [pair_infix_append_iff, pair_infix_append_iff] at h ⊢
  rw [not_or, not_or, not_or, not_or] at h
  obtain ⟨ha, ⟨-, hb, -⟩, hseam⟩ := h
  intro hpair
  rcases hpair with hpair | (hpair | hpair | ⟨hlast, -⟩) | ⟨hlast, hfirst⟩
  · exact ha hpair
  · exact hz (hpair.subset (by simp))
  · exact hb hpair
  · exact hz (List.mem_of_getLast? hlast)
  · have hzhead : z.head? = some d := by
      cases z with
      | nil => exact absurd rfl hne
      | cons x z => exact hfirst
    refine hseam ⟨hlast, ?_⟩
    rw [List.head?_append, hhead hzhead, Option.some_or]

theorem getLast?_suffix {z u v : Text} (h : z = u ++ v) (hv : v ≠ []) :
    z.getLast? = v.getLast? := by
  rw [h, List.getLast?_append]
  cases hl : v.getLast? with
  | none => exact absurd (List.getLast?_eq_none_iff.1 hl) hv
  | some c => rfl

theorem not_prefix_of_last {z u v k rest more : Text} {c : Char} (hz : z = u ++ v) (hv : v ≠ [])
    (hlast : z.getLast? = some c) (hk : ¬k <:+: z)
    (hc : ∀ l m, k = l ++ m → m ≠ [] → l.getLast? ≠ some c) : v ++ rest ≠ k ++ more := by
  intro h
  rcases List.append_eq_append_iff.1 h with ⟨a, hka, -⟩ | ⟨a, hva, -⟩
  · cases a with
    | nil => exact hk ⟨u, [], by rw [hz, hka]; simp⟩
    | cons d a =>
      exact hc v (d :: a) hka (List.cons_ne_nil d a) (by rw [← getLast?_suffix hz hv, hlast])
  · exact hk ⟨u, a, by rw [hz, hva, List.append_assoc]⟩

theorem mem_of_append {a b c x y : Text} {d : Char} (h : a ++ d :: b = x ++ (y ++ c))
    (hle : x.length ≤ a.length) (hlt : a.length < x.length + y.length) : d ∈ y := by
  have hget := congrArg (·[a.length]?) h
  simp only [List.getElem?_append_right (Nat.le_refl _), Nat.sub_self, List.getElem?_cons_zero,
    List.getElem?_append_right hle] at hget
  rw [List.getElem?_append_left (by omega)] at hget
  exact List.mem_of_getElem? hget.symm

theorem append_cons_cases {x y r u : Text} {c : Char} (h : x ++ c :: r = y ++ c :: u) :
    (x = y ∧ r = u) ∨ (∃ k, y = x ++ c :: k ∧ r = k ++ c :: u) ∨
      ∃ k, x = y ++ c :: k ∧ u = k ++ c :: r := by
  rcases List.append_eq_append_iff.1 h with ⟨k, rfl, hk⟩ | ⟨k, rfl, hk⟩
  · cases k with
    | nil => exact .inl ⟨(List.append_nil x).symm, (List.cons.inj hk).2⟩
    | cons d k =>
      obtain ⟨rfl, hr⟩ := List.cons.inj hk
      exact .inr (.inl ⟨k, rfl, hr⟩)
  · cases k with
    | nil => exact .inl ⟨List.append_nil y, (List.cons.inj hk).2.symm⟩
    | cons d k =>
      obtain ⟨rfl, hu⟩ := List.cons.inj hk
      exact .inr (.inr ⟨k, rfl, hu⟩)

theorem apart_or_crosses {a z y s r : Text} (h : a ++ z = y ++ (s ++ r)) :
    y.length + s.length ≤ a.length ∨ a.length ≤ y.length ∨
      ∃ c d, c ≠ [] ∧ d ≠ [] ∧ a = y ++ c ∧ s = c ++ d ∧ z = d ++ r := by
  rcases List.append_eq_append_iff.1 h with ⟨c, rfl, -⟩ | ⟨c, rfl, hsr⟩
  · exact .inr (.inl (by simp))
  · rcases List.append_eq_append_iff.1 hsr with ⟨d, rfl, -⟩ | ⟨d, hs, hz⟩
    · exact .inl (by simp)
    · by_cases hc : c = []
      · exact .inr (.inl (by simp [hc]))
      · by_cases hd : d = []
        · exact .inl (by simp [hs, hd])
        · exact .inr (.inr ⟨c, d, hc, hd, rfl, hs, hz⟩)

end IconCatalog.Text
