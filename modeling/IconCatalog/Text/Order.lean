import IconCatalog.Text.Basic
/-!
The order of names: character by character, by code point. Code points order texts as their UTF-8
bytes do.
-/
namespace IconCatalog.Text

def atMost : Text → Text → Bool
  | [], _ => true
  | _ :: _, [] => false
  | a :: s, b :: t => a < b || (a = b && atMost s t)

theorem atMost_total (s t : Text) : atMost s t = true ∨ atMost t s = true := by
  induction s generalizing t with
  | nil => exact .inl (by simp [atMost])
  | cons a s ih =>
    cases t with
    | nil => exact .inr (by simp [atMost])
    | cons b t =>
      simp only [atMost, Bool.or_eq_true, Bool.and_eq_true, decide_eq_true_eq]
      rcases Nat.lt_trichotomy a.toNat b.toNat with h | h | h
      · exact .inl (.inl h)
      · obtain rfl := Char.toNat_inj.1 h
        exact (ih t).imp (fun h => .inr ⟨rfl, h⟩) (fun h => .inr ⟨rfl, h⟩)
      · exact .inr (.inl h)

theorem atMost_trans {s t u : Text} (h : atMost s t = true) (h' : atMost t u = true) :
    atMost s u = true := by
  induction s generalizing t u with
  | nil => simp [atMost]
  | cons a s ih =>
    cases t with
    | nil => simp [atMost] at h
    | cons b t =>
      cases u with
      | nil => simp [atMost] at h'
      | cons c u =>
        simp only [atMost, Bool.or_eq_true, Bool.and_eq_true, decide_eq_true_eq] at h h' ⊢
        rcases h with hab | ⟨rfl, hst⟩
        · rcases h' with hbc | ⟨rfl, -⟩
          · exact .inl (Char.lt_trans hab hbc)
          · exact .inl hab
        · rcases h' with hbc | ⟨rfl, htu⟩
          · exact .inl hbc
          · exact .inr ⟨rfl, ih hst htu⟩

theorem atMost_antisymm {s t : Text} (h : atMost s t = true) (h' : atMost t s = true) : s = t := by
  induction s generalizing t with
  | nil =>
    cases t with
    | nil => rfl
    | cons b t => exact nomatch h'
  | cons a s ih =>
    cases t with
    | nil => exact nomatch h
    | cons b t =>
      simp only [atMost, Bool.or_eq_true, Bool.and_eq_true, decide_eq_true_eq] at h h'
      rcases h with hab | ⟨rfl, hst⟩
      · rcases h' with hba | ⟨rfl, -⟩
        · exact absurd (Char.lt_trans hab hba) (Nat.lt_irrefl _)
        · exact absurd hab (Nat.lt_irrefl _)
      · rcases h' with haa | ⟨-, hts⟩
        · exact absurd haa (Nat.lt_irrefl _)
        · rw [ih hst hts]

end IconCatalog.Text
