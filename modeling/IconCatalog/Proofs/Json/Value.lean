import IconCatalog.Json.Value
import Mathlib.Data.List.TakeWhile
import IconCatalog.Proofs.Json.Literal
/-!
Reading a text token by token. What has been read so far is in the builder, so a printed value is
read by following it from its first character to its last.
-/
namespace IconCatalog.Json
open Text

/-- Reading goes on from a builder to the end of a text. -/
def readOn (b : Builder) (t : Text) : Option Builder :=
  (tokens? t).bind fun ks => ks.foldlM Builder.step b

theorem read?_of_readOn {t : Text} {v : Value}
    (h : readOn (.inside [] .value) t = some (.complete v)) : Value.read? t = some v := by
  obtain ⟨ks, hks, hv⟩ := Option.bind_eq_some_iff.1 h
  rw [Value.read?, hks, Option.bind_some, Value.ofTokens?, hv]

theorem readOn_space {w : Text} (hw : ∀ c ∈ w, isSpace c = true) (b : Builder) :
    readOn b w = some b := by
  have hskip : skipSpace w = [] := List.dropWhile_eq_nil_iff.2 hw
  rw [readOn, tokens?, if_pos hskip]
  rfl

theorem tokens?_cons {w t r : Text} {k : Token} (hw : ∀ c ∈ w, isSpace c = true)
    (hstart : ∀ c ∈ t.head?, isSpace c = false) (h : token? t = some (k, r)) :
    tokens? (w ++ t) = (tokens? r).map (k :: ·) := by
  have hskip : skipSpace (w ++ t) = t := by
    rw [skipSpace, List.dropWhile_append_of_pos hw]
    cases t with
    | nil => rfl
    | cons c t => simp [hstart c rfl]
  have hfilled : t ≠ [] := by
    rintro rfl
    exact absurd h (by simp [token?])
  rw [tokens?]
  simp only [hskip, if_neg hfilled]
  split
  · next hnone =>
    rw [hskip, h] at hnone
    cases hnone
  · next hsome =>
    rw [hskip] at hsome
    obtain ⟨rfl, rfl⟩ := Prod.mk.inj (Option.some.inj (h.symm.trans hsome))
    rfl

theorem readOn_cons {w t r : Text} {k : Token} {b b' : Builder} (hw : ∀ c ∈ w, isSpace c = true)
    (hstart : ∀ c ∈ t.head?, isSpace c = false) (h : token? t = some (k, r))
    (hb : b.step k = some b') : readOn b (w ++ t) = readOn b' r := by
  rw [readOn, tokens?_cons hw hstart h, readOn, Option.bind_map]
  refine Option.bind_congr fun ks _ => ?_
  simp [hb]

theorem readOn_mark {w r : Text} {c : Char} {k : Token} {b b' : Builder}
    (hw : ∀ d ∈ w, isSpace d = true) (hc : mark? c = some k) (hb : b.step k = some b') :
    readOn b (w ++ c :: r) = readOn b' r := by
  refine readOn_cons hw ?_ (by simp [token?, hc]) hb
  rintro d ⟨⟩
  refine Bool.eq_false_iff.2 fun hspace => ?_
  have hnone : mark? c = none := by
    simp only [isSpace, Bool.or_eq_true, decide_eq_true_eq] at hspace
    rcases hspace with ((rfl | rfl) | rfl) | rfl <;> rfl
  exact nomatch hc.symm.trans hnone

theorem exists_readOn_text {w : Text} (hw : ∀ c ∈ w, isSpace c = true) (t r : Text) :
    ∃ ps, textOf? ps = some t ∧ ∀ {b b' : Builder}, b.step (.string ps) = some b' →
      readOn b (w ++ writeText t ++ r) = readOn b' r := by
  obtain ⟨ps, hps, ht⟩ := exists_pieces t r
  have htoken : token? (writeText t ++ r) = some (.string ps, r) := by
    simp [writeText, token?, mark?, hps]
  refine ⟨ps, ht, fun hb => ?_⟩
  rw [List.append_assoc]
  refine readOn_cons hw ?_ htoken hb
  rintro c ⟨⟩
  rfl

end IconCatalog.Json
