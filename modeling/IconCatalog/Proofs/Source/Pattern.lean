import IconCatalog.Proofs.Source.Token
import IconCatalog.Source.Pattern
/-!
What the steps of a pattern take off a text, and patterns that run up to the first opening brace.
Such a pattern sees nothing of the text behind that brace, so whether it matches does not depend on
what is printed there.
-/
namespace IconCatalog.Source.Pattern
open Text

def IsSpace (w : Text) : Prop := w ≠ [] ∧ IsGap w

theorem space_append {w : Text} (hw : IsSpace w) (t : Text) :
    space (w ++ t) = some (skipGap t) := by
  obtain ⟨hne, hgap⟩ := hw
  cases w with
  | nil => exact absurd rfl hne
  | cons c w =>
    have hc := hgap c List.mem_cons_self
    have hskip : skipGap (w ++ t) = skipGap t := skipGap_append (fun d hd => hgap d (.tail c hd)) t
    simp [space, hc, hskip]

theorem exists_space {t r : Text} (h : space t = some r) : ∃ w, IsSpace w ∧ t = w ++ r := by
  cases t with
  | nil => simp [space] at h
  | cons c t =>
    by_cases hc : isGap c = true
    · simp only [space, hc, if_true, Option.some.injEq] at h
      obtain ⟨w, hw, ht⟩ := exists_gap t
      refine ⟨c :: w, ⟨List.cons_ne_nil c w, List.forall_mem_cons.2 ⟨hc, hw⟩⟩, ?_⟩
      rw [List.cons_append, ← h, ← ht]
    · simp [space, hc] at h

theorem word_skipGap {c : Char} (hc : isGap c = false) (w t : Text) :
    word (c :: w) (skipGap (c :: w ++ t)) = some t := by
  rw [List.cons_append, skipGap_cons hc]
  exact after?_append (c :: w) t

theorem sequence_cons_eq_some_iff {p : Pattern} {ps : List Pattern} {t r : Text} :
    sequence (p :: ps) t = some r ↔ ∃ u, p t = some u ∧ sequence ps u = some r := by
  rw [sequence, Option.bind_eq_some_iff]

theorem word_prefix_of_sequence {w t r : Text} {ps : List Pattern}
    (h : sequence (word w :: ps) t = some r) : w <+: t := by
  obtain ⟨u, hu, -⟩ := sequence_cons_eq_some_iff.1 h
  exact ⟨u, (after?_eq_some_iff.1 hu).symm⟩

theorem sequence_word_of_head {c d : Char} (h : d ≠ c) (w t : Text) (ps : List Pattern) :
    sequence (word (c :: w) :: ps) (d :: t) = none := by
  simp [sequence, word, after?, Ne.symm h]

theorem optional_eq_some_iff {p : Pattern} {t r : Text} :
    optional p t = some r ↔ p t = some r ∨ p t = none ∧ t = r := by
  cases h : p t <;> simp [optional, h]

def IsTypeMark (stops : List Char) (m : Text) : Prop :=
  ∃ x, m = ':' :: x ∧ x ≠ [] ∧ ∀ c ∈ x, stops.contains c = false

theorem typeMark_append {stops : List Char} {m : Text} (hm : IsTypeMark stops m) {c : Char}
    (hc : stops.contains c = true) (t : Text) : typeMark stops (m ++ c :: t) = some (c :: t) := by
  obtain ⟨x, rfl, hne, hx⟩ := hm
  cases x with
  | nil => exact absurd rfl hne
  | cons d x =>
    have hd := hx d List.mem_cons_self
    have hpos : ∀ e ∈ x, (!stops.contains e) = true := fun e he => by rw [hx e (.tail d he)]; rfl
    have hdrop : (x ++ c :: t).dropWhile (!stops.contains ·) = c :: t := by
      rw [List.dropWhile_append_of_pos hpos, List.dropWhile_cons_of_neg (by simp at hc; simp [hc])]
    simp only [typeMark, List.cons_append, char?_cons_self, hd, hdrop]
    simp

theorem exists_typeMark {stops : List Char} {t r : Text} (h : typeMark stops t = some r) :
    ∃ m, IsTypeMark stops m ∧ t = m ++ r := by
  unfold typeMark at h
  split at h
  · next c u hu =>
    split at h
    · simp at h
    · next hc =>
      obtain rfl := Option.some.inj h
      refine ⟨':' :: c :: u.takeWhile (!stops.contains ·), ⟨_, rfl, List.cons_ne_nil c _, ?_⟩, ?_⟩
      · intro d hd
        cases List.mem_cons.1 hd with
        | inl h =>
          subst h
          simpa using hc
        | inr hd => simpa using List.all_eq_true.1 List.all_takeWhile d hd
      · rw [char?_eq_some_iff.1 hu, List.cons_append, List.cons_append,
          List.takeWhile_append_dropWhile]
  · simp at h

/-- What a pattern leaves is the end of the text it was given. -/
def LeavesSuffix (p : Pattern) : Prop := ∀ {t r}, p t = some r → r <:+ t

@[simp] theorem leavesSuffix_word (w : Text) : (word w).LeavesSuffix := fun h =>
  ⟨w, (after?_eq_some_iff.1 h).symm⟩

@[simp] theorem leavesSuffix_char (c : Char) : (char c).LeavesSuffix := fun h =>
  ⟨[c], (char?_eq_some_iff.1 h).symm⟩

@[simp] theorem leavesSuffix_gap : gap.LeavesSuffix := fun {t r} h => by
  obtain rfl : skipGap t = r := Option.some.inj h
  exact List.dropWhile_suffix isGap

@[simp] theorem leavesSuffix_space : space.LeavesSuffix := fun h => by
  obtain ⟨w, -, ht⟩ := exists_space h
  exact ⟨w, ht.symm⟩

@[simp] theorem leavesSuffix_name : name.LeavesSuffix := fun h => by
  obtain ⟨⟨n, r⟩, hn, rfl⟩ := Option.map_eq_some_iff.1 h
  exact ⟨n, (name?_eq_some_iff.1 hn).1.symm⟩

@[simp] theorem leavesSuffix_typeMark (stops : List Char) : (typeMark stops).LeavesSuffix :=
  fun h => by
    obtain ⟨m, -, ht⟩ := exists_typeMark h
    exact ⟨m, ht.symm⟩

variable {p q : Pattern}

@[simp] theorem LeavesSuffix.optional (hp : p.LeavesSuffix) : (optional p).LeavesSuffix :=
  fun h => by
    rcases optional_eq_some_iff.1 h with h | ⟨-, rfl⟩
    · exact hp h
    · exact List.suffix_rfl

@[simp] theorem LeavesSuffix.either (hp : p.LeavesSuffix) (hq : q.LeavesSuffix) :
    (either p q).LeavesSuffix := fun h => by
  rcases Option.or_eq_some_iff.1 h with h | ⟨-, h⟩
  · exact hp h
  · exact hq h

@[simp] theorem leavesSuffix_sequence {ps : List Pattern} (hps : ∀ p ∈ ps, LeavesSuffix p) :
    (sequence ps).LeavesSuffix := fun {t r} h => by
  induction ps generalizing t with
  | nil =>
    obtain rfl : t = r := Option.some.inj h
    exact List.suffix_rfl
  | cons p ps ih =>
    obtain ⟨hp, hps⟩ := List.forall_mem_cons.1 hps
    obtain ⟨u, hu, hr⟩ := sequence_cons_eq_some_iff.1 h
    exact (ih hps hr).trans (hp hu)

/-- A pattern that matches the headings of a kind with the opening brace behind them. No heading has
such a brace in it. -/
structure EndsAtBrace (p : Pattern) (IsHeading : Text → Prop) : Prop where
  eq_some_iff : ∀ {t r}, p t = some r ↔ ∃ u, IsHeading u ∧ t = u ++ '\x7b' :: r
  no_brace : ∀ {u}, IsHeading u → '\x7b' ∉ u
  ne_nil : ∀ {u}, IsHeading u → u ≠ []

theorem append_cons_inj {c : Char} {u v a b : Text} (hu : c ∉ u) (hv : c ∉ v)
    (h : u ++ c :: a = v ++ c :: b) : u = v ∧ a = b := by
  induction u generalizing v with
  | nil =>
    cases v with
    | nil => exact ⟨rfl, (List.cons.inj h).2⟩
    | cons d v => exact absurd (List.cons.inj h).1 (fun hcd => hv (hcd ▸ List.mem_cons_self))
  | cons e u ih =>
    cases v with
    | nil => exact absurd (List.cons.inj h).1 (fun hce => hu (hce ▸ List.mem_cons_self))
    | cons d v =>
      obtain ⟨hed, htail⟩ := List.cons.inj h
      obtain ⟨huv, hab⟩ := ih (fun he => hu (.tail e he)) (fun hd => hv (.tail d hd)) htail
      exact ⟨by rw [hed, huv], hab⟩

variable {IsHeading : Text → Prop}

theorem EndsAtBrace.brace_iff (hp : p.EndsAtBrace IsHeading) {u : Text} (hu : '\x7b' ∉ u)
    {t r : Text} : p (u ++ '\x7b' :: t) = some r ↔ IsHeading u ∧ t = r := by
  rw [hp.eq_some_iff]
  constructor
  · intro ⟨v, hv, h⟩
    obtain ⟨huv, htr⟩ := append_cons_inj hu (hp.no_brace hv) h
    exact ⟨huv ▸ hv, htr⟩
  · intro ⟨hu, htr⟩
    exact ⟨u, hu, by rw [htr]⟩

theorem EndsAtBrace.append (hp : p.EndsAtBrace IsHeading) {w : Text} (hw : '\x7b' ∈ w)
    (rest : Text) : p (w ++ rest) = (p w).map (· ++ rest) := by
  obtain ⟨u, t, hwu, hu⟩ := List.eq_append_cons_of_mem hw
  have hsplit : w ++ rest = u ++ '\x7b' :: (t ++ rest) := by simp [hwu]
  rw [hsplit, hwu]
  cases h : p (u ++ '\x7b' :: t) with
  | some r =>
    obtain ⟨hheading, rfl⟩ := (hp.brace_iff hu).1 h
    exact (hp.brace_iff hu).2 ⟨hheading, rfl⟩
  | none =>
    cases h' : p (u ++ '\x7b' :: (t ++ rest)) with
    | none => rfl
    | some r =>
      obtain ⟨hheading, -⟩ := (hp.brace_iff hu).1 h'
      have : p (u ++ '\x7b' :: t) = some t := (hp.brace_iff hu).2 ⟨hheading, rfl⟩
      rw [h] at this
      exact absurd this (by simp)

end IconCatalog.Source.Pattern
