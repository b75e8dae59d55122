import IconCatalog.Json.Literal
/-!
Written string literals are read back. Escapes are undone one by one, so every text comes back as
it was, whatever characters it has.
-/
namespace IconCatalog.Json
open Text

theorem hexDigit?_digitChar : ∀ n < 16, hexDigit? (Nat.digitChar n) = some n := by decide

theorem codeUnit?_control {c : Char} (h : c.toNat < 0x20) :
    codeUnit? '0' '0' (Nat.digitChar (c.toNat / 16)) (Nat.digitChar (c.toNat % 16)) =
      some c.toNat := by
  have hhigh := hexDigit?_digitChar (c.toNat / 16) (by omega)
  have hlow := hexDigit?_digitChar (c.toNat % 16) (by omega)
  have hzero : hexDigit? '0' = some 0 := by decide
  simp only [codeUnit?, hzero, hhigh, hlow, Option.pure_def, Option.bind_eq_bind,
    Option.bind_some, Option.some.injEq]
  omega

theorem pieces?_plain {c : Char} (hc : 0x20 ≤ c.toNat) (hquote : c ≠ '\x22')
    (hslash : c ≠ '\\') {t rest : Text} {ps : List Piece} (h : pieces? t = some (ps, rest)) :
    pieces? (c :: t) = some (.plain c :: ps, rest) := by
  have hproper : ¬(c.toNat < 0x20) := by omega
  rw [pieces?]
  · simp [hproper, hslash, h]
  · exact fun heq => hquote heq
  · exact fun _ _ _ _ _ heq _ => hslash heq
  · exact fun _ _ heq _ => hslash heq

theorem pieces?_escaped {e c : Char} (he : escape? e = some c) (hu : e ≠ 'u') {t rest : Text}
    {ps : List Piece} (h : pieces? t = some (ps, rest)) :
    pieces? ('\\' :: e :: t) = some (.plain c :: ps, rest) := by
  rw [pieces?]
  · simp [he, h]
  · exact fun _ _ _ _ _ heq _ => hu heq

theorem pieces?_codeUnit {a b c d : Char} {n : Nat} (hn : codeUnit? a b c d = some n)
    {t rest : Text} {ps : List Piece} (h : pieces? t = some (ps, rest)) :
    pieces? ('\\' :: 'u' :: a :: b :: c :: d :: t) = some (.codeUnit n :: ps, rest) := by
  rw [pieces?]
  simp [hn, h]

theorem exists_piece (c : Char) {t rest : Text} {ps : List Piece}
    (h : pieces? t = some (ps, rest)) :
    ∃ p, pieces? (writeChar c ++ t) = some (p :: ps, rest) ∧
      textOf? (p :: ps) = (textOf? ps).map (c :: ·) := by
  have hescaped {e : Char} (he : escape? e = some c) (hu : e ≠ 'u') :
      ∃ p, pieces? ('\\' :: e :: t) = some (p :: ps, rest) ∧
        textOf? (p :: ps) = (textOf? ps).map (c :: ·) :=
    ⟨.plain c, pieces?_escaped he hu h, rfl⟩
  unfold writeChar
  split
  · next hc => subst hc; exact hescaped (e := '\x22') rfl (by decide)
  split
  · next hc => subst hc; exact hescaped (e := '\\') rfl (by decide)
  split
  · next hc => subst hc; exact hescaped (e := 'b') rfl (by decide)
  split
  · next hc => subst hc; exact hescaped (e := 'f') rfl (by decide)
  split
  · next hc => subst hc; exact hescaped (e := 'n') rfl (by decide)
  split
  · next hc => subst hc; exact hescaped (e := 'r') rfl (by decide)
  split
  · next hc => subst hc; exact hescaped (e := 't') rfl (by decide)
  split
  · next hcontrol =>
    have hunit := pieces?_codeUnit (codeUnit?_control hcontrol) h
    have hhigh : isHighSurrogate c.toNat = false := by simp [isHighSurrogate]; omega
    have hlow : isLowSurrogate c.toNat = false := by simp [isLowSurrogate]; omega
    refine ⟨.codeUnit c.toNat, hunit, ?_⟩
    rw [textOf?.eq_def]
    simp only [hhigh, hlow, Bool.false_eq_true, if_false, Char.ofNat_toNat]
  · next hquote hslash _ _ _ _ _ hcontrol =>
    exact ⟨.plain c, pieces?_plain (by omega) hquote hslash h, rfl⟩

/-- A written text is read up to its closing quote, and its pieces spell the text. -/
theorem exists_pieces (t rest : Text) :
    ∃ ps, pieces? (t.flatMap writeChar ++ '\x22' :: rest) = some (ps, rest) ∧
      textOf? ps = some t := by
  induction t with
  | nil => exact ⟨[], by rw [List.flatMap_nil, List.nil_append, pieces?], rfl⟩
  | cons c t ih =>
    obtain ⟨ps, hps, ht⟩ := ih
    obtain ⟨p, hp, hc⟩ := exists_piece c hps
    refine ⟨p :: ps, ?_, by rw [hc, ht]; rfl⟩
    rw [List.flatMap_cons, List.append_assoc, hp]

end IconCatalog.Json
