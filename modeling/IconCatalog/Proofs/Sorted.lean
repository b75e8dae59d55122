import IconCatalog.Sorted
/-!
One more element in a list that is in order. Sorting leaves the others as they stand and finds a
place between them. In any list, two elements that differ in the order find the same places
whichever of them comes first, and elements that are left out make no difference to the others.
-/
namespace IconCatalog
variable {α β : Type} {le : α → α → Bool}

theorem insertBy_of_le {a : α} {l : List α} (h : ∀ b ∈ l, le a b = true) :
    insertBy le a l = a :: l := by
  cases l with
  | nil => rfl
  | cons b l => rw [insertBy, if_pos (h b List.mem_cons_self)]

theorem sortBy_of_pairwise {l : List α} (h : l.Pairwise fun a b => le a b = true) :
    sortBy le l = l := by
  induction l with
  | nil => rfl
  | cons a l ih =>
    obtain ⟨ha, hl⟩ := List.pairwise_cons.1 h
    rw [sortBy, ih hl, insertBy_of_le ha]

theorem exists_sortBy_append {l : List α} (h : l.Pairwise fun a b => le a b = true) (e : α) :
    ∃ as bs, l = as ++ bs ∧ sortBy le (l ++ [e]) = as ++ e :: bs := by
  induction l with
  | nil => exact ⟨[], [], rfl, rfl⟩
  | cons a l ih =>
    obtain ⟨ha, hl⟩ := List.pairwise_cons.1 h
    obtain ⟨as, bs, hsplit, hsort⟩ := ih hl
    rw [List.cons_append, sortBy, hsort]
    cases as with
    | cons b as =>
      have hab : le a b = true := ha b (by simp [hsplit])
      refine ⟨a :: b :: as, bs, by rw [hsplit]; rfl, ?_⟩
      rw [List.cons_append, insertBy, if_pos hab]
      rfl
    | nil =>
      obtain rfl : l = bs := hsplit
      by_cases hae : le a e = true
      · refine ⟨[a], l, rfl, ?_⟩
        rw [List.nil_append, insertBy, if_pos hae]
        rfl
      · refine ⟨[], a :: l, rfl, ?_⟩
        rw [List.nil_append, insertBy, if_neg hae, insertBy_of_le ha]
        rfl

theorem map_sortBy (f : α → β) {le' : β → β → Bool} (h : ∀ a b, le a b = le' (f a) (f b))
    (l : List α) :
    (sortBy le l).map f = sortBy le' (l.map f) := by
  have hinsert (a : α) (l : List α) : (insertBy le a l).map f = insertBy le' (f a) (l.map f) := by
    induction l with
    | nil => rfl
    | cons b l ih =>
      rw [insertBy, List.map_cons, insertBy, ← h]
      by_cases hab : le a b = true
      · simp [hab]
      · simp [hab, ih]
  induction l with
  | nil => rfl
  | cons a l ih => rw [sortBy, hinsert, ih, List.map_cons, sortBy]

/-- Two elements that differ in the order find their places whichever of them is first, in a list
that need not be sorted. -/
theorem insertBy_comm (total : ∀ a b, le a b = true ∨ le b a = true)
    (trans : ∀ {a b c}, le a b = true → le b c = true → le a c = true) {a b : α}
    (hne : ¬(le a b = true ∧ le b a = true)) (l : List α) :
    insertBy le a (insertBy le b l) = insertBy le b (insertBy le a l) := by
  have hlt {a b : α} (hab : le a b = true) (hba : ¬le b a = true) :
      insertBy le a (insertBy le b l) = insertBy le b (insertBy le a l) := by
    induction l with
    | nil => simp [insertBy, hab, hba]
    | cons c l ih =>
      by_cases hbc : le b c = true
      · have hac : le a c = true := trans hab hbc
        simp [insertBy, hab, hba, hbc, hac]
      · by_cases hac : le a c = true
        · simp [insertBy, hba, hbc, hac]
        · simp [insertBy, hbc, hac, ih]
  cases total a b with
  | inl hab => exact hlt hab fun hba => hne ⟨hab, hba⟩
  | inr hba => exact (hlt hba fun hab => hne ⟨hab, hba⟩).symm

theorem sortBy_append (l m : List α) :
    sortBy le (l ++ m) = l.foldr (insertBy le) (sortBy le m) := by
  induction l with
  | nil => rfl
  | cons a l ih => rw [List.cons_append, sortBy, ih, List.foldr_cons]

/-- Sorting is stable, so that what was sorted before may be sorted along with what is added. -/
theorem sortBy_sortBy_append (total : ∀ a b, le a b = true ∨ le b a = true)
    (trans : ∀ {a b c}, le a b = true → le b c = true → le a c = true) (l m : List α) :
    sortBy le (sortBy le l ++ m) = sortBy le (l ++ m) := by
  have hinsert (a : α) (l s : List α) :
      (insertBy le a l).foldr (insertBy le) s = insertBy le a (l.foldr (insertBy le) s) := by
    induction l with
    | nil => rfl
    | cons b l ih =>
      by_cases hab : le a b = true
      · rw [insertBy, if_pos hab, List.foldr_cons]
      · rw [insertBy, if_neg hab, List.foldr_cons, List.foldr_cons, ih,
          insertBy_comm total trans fun h => hab h.2]
  induction l with
  | nil => rfl
  | cons a l ih =>
    rw [sortBy, sortBy_append, hinsert, ← sortBy_append, ih, List.cons_append, sortBy]

theorem sortBy_append_comm (total : ∀ a b, le a b = true ∨ le b a = true)
    (trans : ∀ {a b c}, le a b = true → le b c = true → le a c = true) {a b : α}
    (hne : ¬(le a b = true ∧ le b a = true)) (l : List α) :
    sortBy le (sortBy le (l ++ [a]) ++ [b]) = sortBy le (sortBy le (l ++ [b]) ++ [a]) := by
  have hpair : sortBy le ([a] ++ [b]) = sortBy le ([b] ++ [a]) := insertBy_comm total trans hne []
  rw [sortBy_sortBy_append total trans, sortBy_sortBy_append total trans, List.append_assoc,
    sortBy_append, hpair, ← sortBy_append, List.append_assoc]

theorem filter_sortBy (total : ∀ a b, le a b = true ∨ le b a = true)
    (trans : ∀ {a b c}, le a b = true → le b c = true → le a c = true) (p : α → Bool)
    (l : List α) : (sortBy le l).filter p = sortBy le (l.filter p) := by
  have hinsert (a : α) {l : List α} (hl : l.Pairwise fun a b => le a b = true) :
      (insertBy le a l).filter p =
        if p a = true then insertBy le a (l.filter p) else l.filter p := by
    induction l with
    | nil => simp [insertBy, List.filter_cons]
    | cons b l ih =>
      obtain ⟨hb, hl⟩ := List.pairwise_cons.1 hl
      by_cases hab : le a b = true
      · have hall : ∀ c ∈ (b :: l).filter p, le a c = true := fun c hc => by
          cases List.mem_cons.1 (List.mem_filter.1 hc).1 with
          | inl h => rwa [h]
          | inr h => exact trans hab (hb c h)
        rw [insertBy, if_pos hab, List.filter_cons, insertBy_of_le hall]
      · rw [insertBy, if_neg hab, List.filter_cons, List.filter_cons, ih hl]
        by_cases hpa : p a = true
        · by_cases hpb : p b = true
          · simp [hpa, hpb, insertBy, hab]
          · simp [hpa, hpb]
        · simp [hpa]
  induction l with
  | nil => rfl
  | cons a l ih =>
    rw [sortBy, hinsert a (pairwise_sortBy total trans l), ih, List.filter_cons]
    by_cases hpa : p a = true
    · rw [if_pos hpa, if_pos hpa, sortBy]
    · rw [if_neg hpa, if_neg hpa]

/-- An edit of a list that is kept sorted: one element more, or all elements of a key less. -/
inductive ListEdit (α κ : Type) where
  | add (a : α)
  | drop (k : κ)

namespace ListEdit
variable {κ : Type} {key : α → κ} {x y : ListEdit α κ}

def about (key : α → κ) : ListEdit α κ → κ
  | add a => key a
  | drop k => k

variable [DecidableEq κ]

def apply (le : α → α → Bool) (key : α → κ) (accepted : Bool) (x : ListEdit α κ) (l : List α) :
    List α :=
  match x with
  | add a => if accepted then sortBy le (l ++ [a]) else l
  | drop k => l.filter (key · ≠ k)

theorem mem_apply_iff {a : α} (h : key a ≠ x.about key) (accepted : Bool) (l : List α) :
    a ∈ x.apply le key accepted l ↔ a ∈ l := by
  cases x with
  | add b =>
    have hne : a ≠ b := fun hab => h (congrArg key hab)
    rw [apply]
    split
    · rw [(perm_sortBy _ _).mem_iff, List.mem_append, List.mem_singleton]
      simp [hne]
    · rfl
  | drop k =>
    have hne : key a ≠ k := h
    rw [apply, List.mem_filter]
    simp [hne]

theorem apply_comm (total : ∀ a b, le a b = true ∨ le b a = true)
    (trans : ∀ {a b c}, le a b = true → le b c = true → le a c = true)
    (antisymm : ∀ {a b}, le a b = true → le b a = true → key a = key b)
    (h : x.about key ≠ y.about key) (accepted accepted' : Bool) (l : List α) :
    y.apply le key accepted' (x.apply le key accepted l) =
      x.apply le key accepted (y.apply le key accepted' l) := by
  have hdrop {a : α} {k : κ} (hne : key a ≠ k) (accepted accepted' : Bool) :
      (drop k).apply le key accepted' ((add a).apply le key accepted l) =
        (add a).apply le key accepted ((drop k).apply le key accepted' l) := by
    cases accepted with
    | false => rfl
    | true =>
      have hkeep : [a].filter (key · ≠ k) = [a] := List.filter_cons_of_pos (by simpa using hne)
      simp only [apply, if_true]
      rw [filter_sortBy total trans, List.filter_append, hkeep]
  cases x with
  | add a =>
    cases y with
    | drop k => exact hdrop h accepted accepted'
    | add b =>
      cases accepted with
      | false => rfl
      | true =>
        cases accepted' with
        | false => rfl
        | true =>
          exact sortBy_append_comm total trans (fun hab => h (antisymm hab.1 hab.2)) l
  | drop k =>
    cases y with
    | add b => exact (hdrop (Ne.symm h) accepted' accepted).symm
    | drop k' =>
      simp only [apply, List.filter_filter]
      exact List.filter_congr fun a _ => Bool.and_comm ..

end ListEdit
end IconCatalog
