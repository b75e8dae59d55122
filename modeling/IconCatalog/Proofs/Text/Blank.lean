import IconCatalog.Text.Basic
/-!
Runs of characters at the start of a text, and blanks around it.
-/
namespace IconCatalog.Text

theorem takeWhile_dropWhile_iff {p : Char → Bool} {t a b : Text} :
    (t.takeWhile p = a ∧ t.dropWhile p = b) ↔
      t = a ++ b ∧ (∀ c ∈ a, p c = true) ∧ ∀ c ∈ b.head?, p c = false := by
  constructor
  · rintro ⟨rfl, rfl⟩
    refine ⟨List.takeWhile_append_dropWhile.symm, fun c hc => ?_, fun c hc => ?_⟩
    · exact List.all_eq_true.1 List.all_takeWhile c hc
    · have h := List.head?_dropWhile_not p t
      rw [Option.mem_def.1 hc] at h
      simpa using h
  · rintro ⟨rfl, ha, hb⟩
    rw [List.takeWhile_append_of_pos ha, List.dropWhile_append_of_pos ha]
    cases b with
    | nil => simp
    | cons c b => simp [hb c rfl]

theorem forall_of_all {p : Char → Prop} [DecidablePred p] {t : Text}
    (h : t.all (fun c => decide (p c)) = true) : ∀ c ∈ t, p c := by
  simpa using h

theorem eq_ok_of_toOption {ε α : Type} {e : Except ε α} {a : α} (h : e.toOption = some a) :
    e = .ok a := by
  cases e with
  | error _ => exact nomatch h
  | ok b => rw [Option.some.inj h]

theorem exists_trimStart (t : Text) :
    ∃ w, (∀ c ∈ w, isBlank c = true) ∧ t = w ++ trimStart t :=
  ⟨t.takeWhile isBlank, fun c hc => List.all_eq_true.1 List.all_takeWhile c hc,
    List.takeWhile_append_dropWhile.symm⟩

theorem trimStart_append_cons {w : Text} (hw : ∀ c ∈ w, isBlank c = true) {c : Char}
    (hc : isBlank c = false) (r : Text) : trimStart (w ++ c :: r) = c :: r := by
  rw [trimStart, List.dropWhile_append_of_pos hw, List.dropWhile_cons_of_neg (by simp [hc])]

theorem exists_trimEnd (t : Text) : ∃ w, (∀ c ∈ w, isBlank c = true) ∧ t = trimEnd t ++ w := by
  refine ⟨(t.reverse.takeWhile isBlank).reverse, fun c hc => ?_, ?_⟩
  · exact List.all_eq_true.1 List.all_takeWhile c (List.mem_reverse.1 hc)
  · rw [trimEnd, dropEndWhile, ← List.reverse_append, List.takeWhile_append_dropWhile,
      List.reverse_reverse]

theorem trimEnd_append_blank {w : Text} (h : ∀ c ∈ w, isBlank c = true) (t : Text) :
    trimEnd (t ++ w) = trimEnd t := by
  rw [trimEnd, trimEnd, dropEndWhile, dropEndWhile, List.reverse_append,
    List.dropWhile_append_of_pos fun c hc => h c (List.mem_reverse.1 hc)]

theorem getLast_trimEnd (t : Text) : ∀ c ∈ (trimEnd t).getLast?, isBlank c = false := by
  intro c hc
  rw [trimEnd, dropEndWhile, List.getLast?_reverse] at hc
  exact (takeWhile_dropWhile_iff.1 ⟨rfl, rfl⟩).2.2 c hc

theorem trimEnd_of_getLast {t : Text} (h : ∀ c ∈ t.getLast?, isBlank c = false) :
    trimEnd t = t := by
  rw [trimEnd, dropEndWhile]
  cases hr : t.reverse with
  | nil => simpa using hr
  | cons c r =>
    have hc : isBlank c = false := h c (by rw [← List.head?_reverse, hr]; rfl)
    rw [List.dropWhile_cons_of_neg (by simp [hc]), ← hr, List.reverse_reverse]

@[simp] theorem trimEnd_trimEnd (t : Text) : trimEnd (trimEnd t) = trimEnd t :=
  trimEnd_of_getLast (getLast_trimEnd t)

theorem trimEnd_append {u : Text} {c : Char} (hu : u.getLast? = some c) (hc : isBlank c = false)
    (v : Text) : trimEnd (u ++ v) = u ++ trimEnd v := by
  obtain ⟨w, hw, hv⟩ := exists_trimEnd v
  have hlast : ∀ d ∈ (u ++ trimEnd v).getLast?, isBlank d = false := by
    intro d hd
    rw [List.getLast?_append, Option.mem_def, Option.or_eq_some_iff] at hd
    rcases hd with hd | ⟨-, hd⟩
    · exact getLast_trimEnd v d hd
    · obtain rfl := Option.some.inj (hu.symm.trans hd)
      exact hc
  calc trimEnd (u ++ v) = trimEnd (u ++ trimEnd v ++ w) := by rw [List.append_assoc, ← hv]
    _ = trimEnd (u ++ trimEnd v) := trimEnd_append_blank hw _
    _ = u ++ trimEnd v := trimEnd_of_getLast hlast

theorem exists_of_filled {t : Text} (h : isAllBlank t = false) : ∃ w c r,
    (∀ d ∈ w, isBlank d = true) ∧ isBlank c = false ∧ t = w ++ c :: r ∧ trimStart t = c :: r := by
  obtain ⟨w, hw, ht⟩ := exists_trimStart t
  cases hr : trimStart t with
  | nil =>
    rw [hr, List.append_nil] at ht
    rw [ht, isAllBlank, List.all_eq_true.2 hw] at h
    exact nomatch h
  | cons c r =>
    rw [hr] at ht
    exact ⟨w, c, r, hw, (takeWhile_dropWhile_iff.1 ⟨rfl, hr⟩).2.2 c rfl, ht, rfl⟩

theorem trimStart_append {u : Text} (hu : isAllBlank u = false) (v : Text) :
    trimStart (u ++ v) = trimStart u ++ v := by
  obtain ⟨w, c, r, hw, hc, rfl, hstart⟩ := exists_of_filled hu
  rw [hstart, List.append_assoc]
  exact trimStart_append_cons hw hc (r ++ v)

theorem trim_of_blank {t : Text} (h : isAllBlank t = true) : trim t = [] ∧ trimEnd t = [] := by
  have hall : ∀ c ∈ t, isBlank c = true := List.all_eq_true.1 h
  have hstart : trimStart t = [] := by
    rw [← List.append_nil t, trimStart, List.dropWhile_append_of_pos hall]
    rfl
  exact ⟨by rw [trim, hstart]; rfl, trimEnd_append_blank hall []⟩

theorem exists_trimEnd_eq {t : Text} (h : isAllBlank t = false) :
    ∃ w, trimEnd t = w ++ trim t ∧ trim t ≠ [] := by
  obtain ⟨w, c, r, -, hc, rfl, hstart⟩ := exists_of_filled h
  have hend : trimEnd (w ++ [c] ++ r) = w ++ [c] ++ trimEnd r := trimEnd_append (by simp) hc r
  have hinner : trimEnd ([c] ++ r) = [c] ++ trimEnd r := trimEnd_append rfl hc r
  rw [List.append_assoc, List.append_assoc, ← hinner, List.singleton_append] at hend
  refine ⟨w, by rw [trim, hstart, hend], ?_⟩
  rw [trim, hstart, ← List.singleton_append, hinner]
  exact List.cons_ne_nil c _

theorem trim_eq_nil_iff {t : Text} : trim t = [] ↔ trimEnd t = [] := by
  cases h : isAllBlank t with
  | true => simp [trim_of_blank h]
  | false =>
    obtain ⟨w, hw, hne⟩ := exists_trimEnd_eq h
    simp [hw, hne]

theorem getLast?_trim (t : Text) : (trim t).getLast? = (trimEnd t).getLast? := by
  cases h : isAllBlank t with
  | true => rw [(trim_of_blank h).1, (trim_of_blank h).2]
  | false =>
    obtain ⟨w, hw, hne⟩ := exists_trimEnd_eq h
    rw [hw, List.getLast?_append, List.getLast?_eq_some_getLast hne]
    rfl

theorem filter_of_blank {w : Text} (hw : ∀ c ∈ w, isBlank c = true) :
    w.filter (!isBlank ·) = [] := List.filter_eq_nil_iff.2 fun c hc => by simp [hw c hc]

theorem filter_trim (t : Text) : (trim t).filter (!isBlank ·) = t.filter (!isBlank ·) := by
  obtain ⟨w, hw, ht⟩ := exists_trimStart t
  obtain ⟨v, hv, hstart⟩ := exists_trimEnd (trimStart t)
  calc (trim t).filter (!isBlank ·) = (w ++ (trim t ++ v)).filter (!isBlank ·) := by
        rw [List.filter_append, List.filter_append, filter_of_blank hw, filter_of_blank hv,
          List.nil_append, List.append_nil]
    _ = t.filter (!isBlank ·) := by rw [trim, ← hstart, ← ht]

theorem trim_blank_append {w : Text} (hw : ∀ c ∈ w, isBlank c = true) (t : Text) :
    trim (w ++ t) = trim t := by
  rw [trim, trimStart, List.dropWhile_append_of_pos hw]
  rfl

theorem trim_append_blank {w : Text} (hw : ∀ c ∈ w, isBlank c = true) (t : Text) :
    trim (t ++ w) = trim t := by
  cases h : isAllBlank t with
  | true =>
    have hall : isAllBlank (t ++ w) = true := by
      rw [isAllBlank, List.all_append]
      exact Bool.and_eq_true_iff.2 ⟨h, List.all_eq_true.2 hw⟩
    rw [(trim_of_blank h).1, (trim_of_blank hall).1]
  | false => rw [trim, trimStart_append h, trimEnd_append_blank hw, ← trim]

theorem isAllBlank_append {p w : Text} (hw : ∀ c ∈ w, isBlank c = true) :
    isAllBlank (p ++ w) = isAllBlank p := by
  rw [isAllBlank, List.all_append, List.all_eq_true.2 hw, Bool.and_true]
  rfl

theorem filled_append {p : Text} {c : Char} (hc : isBlank c = false) (r : Text) :
    isAllBlank (p ++ c :: r) = false := by
  simp [isAllBlank, hc]

theorem filled_append_append {p w : Text} {c : Char} (hc : isBlank c = false) (r : Text) :
    isAllBlank (p ++ (w ++ c :: r)) = false := by
  rw [← List.append_assoc]
  exact filled_append hc r

theorem filled_append_left {p : Text} (hp : isAllBlank p = false) (r : Text) :
    isAllBlank (p ++ r) = false := by
  rw [isAllBlank, List.all_append, Bool.and_eq_false_iff]
  exact .inl hp

theorem trim_ne {p v w x y : Text} {c d : Char} (hv : ∀ e ∈ v, isBlank e = true)
    (hw : ∀ e ∈ w, isBlank e = true) (hc : isBlank c = false) (hd : isBlank d = false)
    (hne : c ≠ d) : trim (p ++ (v ++ c :: x)) ≠ trim (p ++ (w ++ d :: y)) := by
  intro heq
  have hfilter := congrArg (List.filter (!isBlank ·)) heq
  simp only [filter_trim, List.filter_append, filter_of_blank hv, filter_of_blank hw,
    List.nil_append, List.filter_cons, hc, hd, Bool.not_false, if_true] at hfilter
  exact hne (List.cons.inj (List.append_cancel_left hfilter)).1

theorem prefix_of_trim_eq {p x e z : Text} {c : Char} (hp : isAllBlank p = false)
    (hc : isBlank c = false) (h : trim (p ++ x) = trim (p ++ (e ++ c :: z))) : e <+: x := by
  obtain ⟨w, -, hw⟩ := exists_trimEnd (trimStart p ++ x)
  have hold : trim (p ++ x) <+: trimStart p ++ x := by
    rw [trim, trimStart_append hp]
    exact ⟨w, hw.symm⟩
  have hnew : trim (p ++ (e ++ c :: z)) = trimStart p ++ (e ++ [c]) ++ trimEnd z := by
    rw [trim, trimStart_append hp, show e ++ c :: z = e ++ [c] ++ z by simp, ← List.append_assoc]
    exact trimEnd_append (by simp) hc z
  rw [h, hnew, List.append_assoc, List.prefix_append_right_inj, List.append_assoc] at hold
  exact (List.prefix_append e _).trans hold

end IconCatalog.Text
