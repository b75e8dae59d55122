import IconCatalog.Proofs.Text.Blank
import IconCatalog.Source.Token
/-!
What each token reader takes off a text. A reader succeeds on exactly the texts that start with its
token, and it leaves the text behind that token as it is.
-/
namespace IconCatalog.Text

@[simp] theorem char?_cons_self (c : Char) (t : Text) : char? c (c :: t) = some t := by
  simp [char?]

theorem char?_eq_some_iff {c : Char} {t r : Text} : char? c t = some r ↔ t = c :: r := by
  cases t with
  | nil => simp [char?]
  | cons d t => by_cases h : d = c <;> simp [char?, h]

theorem char?_eq_none_iff {c : Char} {t : Text} : char? c t = none ↔ t.head? ≠ some c := by
  cases t with
  | nil => simp [char?]
  | cons d t => by_cases h : d = c <;> simp [char?, h]

@[simp] theorem after?_append (lead rest : Text) : after? lead (lead ++ rest) = some rest :=
  after?_eq_some_iff.2 rfl

end IconCatalog.Text

namespace IconCatalog.Source
open Text

def IsGap (w : Text) : Prop := ∀ c ∈ w, isGap c = true

theorem isGap_nil : IsGap [] := fun _ h => nomatch h

theorem isGap_space : IsGap [' '] := by simp [IsGap, isGap]

theorem IsGap.append {v w : Text} (hv : IsGap v) (hw : IsGap w) : IsGap (v ++ w) := fun c hc =>
  (List.mem_append.1 hc).elim (hv c) (hw c)

theorem not_mem_of_isGap {w : Text} (hw : IsGap w) {c : Char} (hc : isGap c = false) : c ∉ w :=
  fun h => by rw [hw c h] at hc; exact absurd hc (by simp)

theorem skipGap_append {w : Text} (h : IsGap w) (t : Text) : skipGap (w ++ t) = skipGap t :=
  List.dropWhile_append_of_pos h

theorem exists_gap (t : Text) : ∃ w, IsGap w ∧ t = w ++ skipGap t :=
  ⟨t.takeWhile isGap, fun c hc => List.all_eq_true.1 List.all_takeWhile c hc,
    List.takeWhile_append_dropWhile.symm⟩

theorem skipGap_of_head {t : Text} (h : ∀ c ∈ t.head?, isGap c = false) : skipGap t = t := by
  cases t with
  | nil => rfl
  | cons c t => simp [skipGap, h c rfl]

theorem head_skipGap (t : Text) : ∀ c ∈ (skipGap t).head?, isGap c = false :=
  (takeWhile_dropWhile_iff.1 ⟨rfl, rfl⟩).2.2

@[simp] theorem skipGap_skipGap (t : Text) : skipGap (skipGap t) = skipGap t :=
  skipGap_of_head (head_skipGap t)

theorem skipGap_cons {c : Char} (h : isGap c = false) (t : Text) : skipGap (c :: t) = c :: t :=
  skipGap_of_head fun d hd => by obtain rfl := Option.some.inj hd; exact h

theorem skipGap_gap_cons {w : Text} {c : Char} (hw : IsGap w) (h : isGap c = false) (t : Text) :
    skipGap (w ++ c :: t) = c :: t := by rw [skipGap_append hw, skipGap_cons h]

theorem comment?_eq_some_iff {t c r : Text} :
    comment? t = some (c, r) ↔
      t = commentMark ++ c ++ r ∧ (∀ x ∈ c, isLineEnd x = false) ∧ atLineEnd r = true := by
  have hends {r : Text} (h : atLineEnd r = true) : ∀ x ∈ r.head?, isLineEnd x = true := by
    cases r with
    | nil => simp
    | cons x r =>
      intro y hy
      obtain rfl := Option.some.inj hy
      by_cases hn : x = '\n'
      · simp [isLineEnd, hn]
      · by_cases hr : x = '\r'
        · simp [isLineEnd, hr]
        · simp [atLineEnd, hn, hr] at h
  unfold comment?
  constructor
  · intro h
    split at h
    · simp at h
    · next u hu =>
      split at h
      · next hend =>
        obtain ⟨rfl, rfl⟩ := Prod.mk.inj (Option.some.inj h)
        refine ⟨?_, fun x hx => ?_, hend⟩
        · rw [List.append_assoc, skipLine, List.takeWhile_append_dropWhile]
          exact after?_eq_some_iff.1 hu
        · simpa using List.all_eq_true.1 List.all_takeWhile x hx
      · simp at h
  · rintro ⟨rfl, hc, hend⟩
    have hsplit : (c ++ r).takeWhile (!isLineEnd ·) = c ∧ (c ++ r).dropWhile (!isLineEnd ·) = r :=
      takeWhile_dropWhile_iff.2 ⟨rfl, fun x hx => by simp [hc x hx], fun x hx => by
        simp [hends hend x hx]⟩
    rw [List.append_assoc, after?_append]
    simp [skipLine, hsplit.1, hsplit.2, hend]

theorem comment?_eq_none_of_head {t : Text} (h : t.head? ≠ some '/') : comment? t = none := by
  have hnone : after? commentMark t = none := by
    cases hm : after? commentMark t with
    | none => rfl
    | some r => exact absurd (by rw [after?_eq_some_iff.1 hm]; rfl) h
  rw [comment?, hnone]

theorem quotedBy?_eq_some_iff {q : Char} {t k r : Text} :
    quotedBy? q t = some (k, r) ↔ t = q :: (k ++ q :: r) ∧ ∀ c ∈ k, isInside q c = true := by
  unfold quotedBy?
  constructor
  · intro h
    split at h
    · simp at h
    · next u hu =>
      split at h
      · simp at h
      · next v hv =>
        obtain ⟨rfl, rfl⟩ := Prod.mk.inj (Option.some.inj h)
        refine ⟨?_, fun c hc => List.all_eq_true.1 List.all_takeWhile c hc⟩
        rw [← char?_eq_some_iff.1 hv, List.takeWhile_append_dropWhile]
        exact char?_eq_some_iff.1 hu
  · rintro ⟨rfl, hk⟩
    obtain ⟨htake, hdrop⟩ :
        (k ++ q :: r).takeWhile (isInside q) = k ∧ (k ++ q :: r).dropWhile (isInside q) = q :: r :=
      takeWhile_dropWhile_iff.2 ⟨rfl, hk, by simp [isInside]⟩
    simp [htake, hdrop]

theorem quotedBy?_eq_none_of_head {q : Char} {t : Text} (h : t.head? ≠ some q) :
    quotedBy? q t = none := by
  unfold quotedBy?
  rw [char?_eq_none_iff.2 h]

theorem quoted?_eq_some_iff_or {t k r : Text} :
    quoted? t = some (k, r) ↔
      quotedBy? doubleQuote t = some (k, r) ∨ quotedBy? singleQuote t = some (k, r) := by
  unfold quoted?
  cases hd : quotedBy? doubleQuote t with
  | none => simp
  | some found =>
    obtain ⟨rfl, -⟩ := quotedBy?_eq_some_iff.1 (show _ = some (found.1, found.2) from hd)
    have : quotedBy? singleQuote (doubleQuote :: (found.1 ++ doubleQuote :: found.2)) = none :=
      quotedBy?_eq_none_of_head (by simp [doubleQuote, singleQuote])
    simp [this]

theorem quoted?_eq_some_iff {t k r : Text} :
    quoted? t = some (k, r) ↔ ∃ q, (q = doubleQuote ∨ q = singleQuote) ∧
      t = q :: (k ++ q :: r) ∧ ∀ c ∈ k, isInside q c = true := by
  rw [quoted?_eq_some_iff_or, quotedBy?_eq_some_iff, quotedBy?_eq_some_iff]
  constructor
  · intro h
    cases h with
    | inl h => exact ⟨doubleQuote, .inl rfl, h⟩
    | inr h => exact ⟨singleQuote, .inr rfl, h⟩
  · intro ⟨q, hq, h⟩
    cases hq with
    | inl hq => exact .inl (hq ▸ h)
    | inr hq => exact .inr (hq ▸ h)

theorem quoted?_eq_none_of_head {t : Text} (hd : t.head? ≠ some doubleQuote)
    (hs : t.head? ≠ some singleQuote) : quoted? t = none := by
  unfold quoted?
  rw [quotedBy?_eq_none_of_head hd]
  exact quotedBy?_eq_none_of_head hs

theorem name?_eq_some_iff {t n r : Text} :
    name? t = some (n, r) ↔
      t = n ++ r ∧ n ≠ [] ∧ (∀ c ∈ n, isNameChar c = true) ∧
        ∀ c ∈ r.head?, isNameChar c = false := by
  have hsplit := @takeWhile_dropWhile_iff isNameChar t n r
  unfold name?
  constructor
  · intro h
    split at h
    · simp at h
    · next c m hm =>
      obtain ⟨rfl, rfl⟩ := Prod.mk.inj (Option.some.inj h)
      obtain ⟨ht, hn, hr⟩ := hsplit.1 ⟨hm, rfl⟩
      exact ⟨ht, List.cons_ne_nil c m, hn, hr⟩
  · rintro ⟨ht, hne, hn, hr⟩
    obtain ⟨htake, hdrop⟩ := hsplit.2 ⟨ht, hn, hr⟩
    cases n with
    | nil => exact absurd rfl hne
    | cons c m => simp [htake, hdrop]

theorem key?_eq_some_iff {t k r : Text} :
    key? t = some (k, r) ↔ quoted? t = some (k, r) ∨ name? t = some (k, r) := by
  unfold key?
  cases hq : quoted? t with
  | none => simp
  | some found =>
    have hname : name? t = none := by
      cases hn : name? t with
      | none => rfl
      | some other =>
        obtain ⟨ht, hne, hchars, -⟩ :=
          name?_eq_some_iff.1 (show _ = some (other.1, other.2) from hn)
        obtain ⟨c, m, hm⟩ := List.exists_cons_of_ne_nil hne
        have hc : isNameChar c = true := hchars c (by simp [hm])
        have hd : t.head? ≠ some doubleQuote := by
          rw [ht, hm]
          intro h
          obtain rfl := Option.some.inj h
          exact absurd hc (by decide)
        have hs : t.head? ≠ some singleQuote := by
          rw [ht, hm]
          intro h
          obtain rfl := Option.some.inj h
          exact absurd hc (by decide)
        rw [quoted?_eq_none_of_head hd hs] at hq
        exact absurd hq (by simp)
    simp [hname]

theorem isGap_iff {c : Char} : isGap c = true ↔ c = ' ' ∨ c = '\t' ∨ c = '\r' ∨ c = '\n' := by
  simp [isGap, or_assoc]

theorem isGap_of_isNameChar {c : Char} (h : isNameChar c = true) : isGap c = false := by
  cases hg : isGap c with
  | false => rfl
  | true => rcases isGap_iff.1 hg with rfl | rfl | rfl | rfl <;> exact absurd h (by decide)

theorem range_of_isNameChar {c : Char} (h : isNameChar c = true) :
    (48 ≤ c.toNat ∧ c.toNat ≤ 57) ∨ (65 ≤ c.toNat ∧ c.toNat ≤ 90) ∨
      (97 ≤ c.toNat ∧ c.toNat ≤ 122) ∨ c.toNat = 95 ∨ c.toNat = 36 := by
  have hupper (h : c.isUpper = true) : 65 ≤ c.toNat ∧ c.toNat ≤ 90 := of_decide_eq_true h
  have hlower (h : c.isLower = true) : 97 ≤ c.toNat ∧ c.toNat ≤ 122 := by
    obtain ⟨h₁, h₂⟩ := Bool.and_eq_true_iff.1 h
    exact ⟨of_decide_eq_true h₁, of_decide_eq_true h₂⟩
  have hdigit (h : c.isDigit = true) : 48 ≤ c.toNat ∧ c.toNat ≤ 57 := by
    obtain ⟨h₁, h₂⟩ := Bool.and_eq_true_iff.1 h
    exact ⟨of_decide_eq_true h₁, of_decide_eq_true h₂⟩
  have halpha (h : c.isAlpha = true) : c.isUpper = true ∨ c.isLower = true :=
    Bool.or_eq_true_iff.1 h
  have halnum (h : c.isAlphanum = true) : c.isAlpha = true ∨ c.isDigit = true :=
    Bool.or_eq_true_iff.1 h
  simp only [isNameChar, Bool.or_eq_true, decide_eq_true_eq] at h
  rcases h with (h | rfl) | rfl
  · cases halnum h with
    | inl h =>
      cases halpha h with
      | inl h => exact .inr (.inl (hupper h))
      | inr h => exact .inr (.inr (.inl (hlower h)))
    | inr h => exact .inl (hdigit h)
  · decide
  · decide

theorem isBlank_of_isNameChar {c : Char} (h : isNameChar c = true) : isBlank c = false := by
  have hrange := range_of_isNameChar h
  simp only [isBlank, Bool.or_eq_false_iff, Bool.and_eq_false_iff, decide_eq_false_iff_not]
  omega

def IsName (n : Text) : Prop := n ≠ [] ∧ ∀ c ∈ n, isNameChar c = true

theorem IsName.not_mem {n : Text} (h : IsName n) {c : Char} (hc : isNameChar c = false) : c ∉ n :=
  fun hmem => by
    rw [h.2 c hmem] at hc
    exact absurd hc (by simp)

/-- The spellings of a key: on one line between two quotes of a kind, or as a run of name
characters. -/
inductive IsKey : Text → Text → Prop where
  | quoted : q = doubleQuote ∨ q = singleQuote → (∀ c ∈ k, c ≠ q ∧ c ≠ '\n') →
      IsKey (q :: (k ++ [q])) k
  | bare : k ≠ [] → (∀ c ∈ k, isNameChar c = true) → IsKey k k

theorem IsKey.no_feed {s k : Text} (h : IsKey s k) : '\n' ∉ k := by
  cases h with
  | quoted _ hk => exact fun hmem => (hk _ hmem).2 rfl
  | bare hne hk => exact IsName.not_mem ⟨hne, hk⟩ (by decide)

theorem isKey_of_key? {t k r : Text} (h : key? t = some (k, r)) :
    ∃ s, t = s ++ r ∧ IsKey s k := by
  cases key?_eq_some_iff.1 h with
  | inl h =>
    obtain ⟨q, hq, ht, hk⟩ := quoted?_eq_some_iff.1 h
    exact ⟨q :: (k ++ [q]), by simp [ht], .quoted hq fun c hc => by simpa [isInside] using hk c hc⟩
  | inr h =>
    obtain ⟨ht, hne, hk, -⟩ := name?_eq_some_iff.1 h
    exact ⟨k, ht, .bare hne hk⟩

/-- In front of anything but a name character, every spelling of a key is read as the key. -/
theorem IsKey.key? {s k : Text} (h : IsKey s k) {r : Text}
    (hr : ∀ c ∈ r.head?, isNameChar c = false) : Source.key? (s ++ r) = some (k, r) := by
  cases h with
  | @quoted q k hq hk =>
    have hinside : ∀ c ∈ k, isInside q c = true := fun c hc => by simpa [isInside] using hk c hc
    exact key?_eq_some_iff.2 (.inl (quoted?_eq_some_iff.2 ⟨q, hq, by simp, hinside⟩))
  | bare hne hk => exact key?_eq_some_iff.2 (.inr (name?_eq_some_iff.2 ⟨rfl, hne, hk, hr⟩))

theorem char?_skipGap_iff {c : Char} (hc : isGap c = false) {t r : Text} :
    char? c (skipGap t) = some r ↔ ∃ w, IsGap w ∧ t = w ++ c :: r := by
  rw [char?_eq_some_iff]
  constructor
  · intro h
    obtain ⟨w, hw, ht⟩ := exists_gap t
    exact ⟨w, hw, by rw [← h, ← ht]⟩
  · rintro ⟨w, hw, rfl⟩
    exact skipGap_gap_cons hw hc r

theorem head_gap_append {w : Text} (hw : IsGap w) {c : Char} (hc : isNameChar c = false)
    (r : Text) : ∀ d ∈ (w ++ c :: r).head?, isNameChar d = false := by
  intro d hd
  cases w with
  | nil => exact Option.some.inj hd ▸ hc
  | cons e w =>
    obtain rfl := Option.some.inj hd
    cases hn : isNameChar e with
    | false => rfl
    | true => exact absurd (hw e List.mem_cons_self) (by simp [isGap_of_isNameChar hn])

end IconCatalog.Source
