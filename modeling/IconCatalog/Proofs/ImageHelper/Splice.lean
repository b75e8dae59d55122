import IconCatalog.Proofs.ImageHelper.Extent
/-!
What replacing definitions does to a source. If the spans of the definitions are apart, each of them
gives way to its new text and all that stands around them is kept in order.
-/
namespace IconCatalog.ImageHelper
open Text Source

def Replacement.InFront (r s : Replacement) : Prop := r.span.stop ≤ s.span.start

instance : DecidableRel Replacement.InFront :=
  fun r s => inferInstanceAs (Decidable (r.span.stop ≤ s.span.start))

/-- What replacing spans from the left makes of a text that starts at a position: every span gives
way to its new text, and what stands between the spans is kept. -/
inductive Rewrites : Nat → Text → List Replacement → Text → Prop where
  | keep {position : Nat} {t : Text} : Rewrites position t [] t
  | replace {position : Nat} {kept old t out : Text} {r : Replacement} {rs : List Replacement} :
      r.span = ⟨position + kept.length, position + kept.length + old.length⟩ →
      Rewrites (position + kept.length + old.length) t rs out →
      Rewrites position (kept ++ (old ++ t)) (r :: rs) (kept ++ (r.text ++ out))

variable {source base : Text} {rs : List Replacement} {r s : Replacement} {position : Nat}

theorem drop_eq_append {a b : Nat} (h : a ≤ b) (t : Text) :
    t.drop a = (t.take b).drop a ++ t.drop b := by
  have hsplit := List.take_append_drop (b - a) (t.drop a)
  rw [List.drop_drop, Nat.add_sub_cancel' h] at hsplit
  rw [List.drop_take, hsplit]

theorem rewrites_splice (hfront : rs.Pairwise Replacement.InFront)
    (hspans : ∀ r ∈ rs, r.span.start ≤ r.span.stop ∧ r.span.stop ≤ source.length)
    (hposition : ∀ r ∈ rs, position ≤ r.span.start) :
    Rewrites position (source.drop position) rs (splice source position rs) := by
  induction rs generalizing position with
  | nil => exact .keep
  | cons r rs ih =>
    obtain ⟨hr, hrs⟩ := List.pairwise_cons.1 hfront
    obtain ⟨⟨horder, hlength⟩, hspans⟩ := List.forall_mem_cons.1 hspans
    obtain ⟨hle, -⟩ := List.forall_mem_cons.1 hposition
    have hkept : position + ((source.take r.span.start).drop position).length = r.span.start := by
      rw [List.length_drop, List.length_take]
      omega
    have hold : r.span.start + ((source.take r.span.stop).drop r.span.start).length =
        r.span.stop := by
      rw [List.length_drop, List.length_take]
      omega
    rw [drop_eq_append hle, drop_eq_append horder, splice, List.append_assoc]
    refine .replace ?_ ?_
    · rw [hkept, hold]
    · rw [hkept, hold]
      exact ih hrs hspans fun s hs => hr s hs

theorem Rewrites.suffix {t out : Text} (h : Rewrites position t rs out) {k : Nat}
    (hspans : ∀ r ∈ rs, r.span.stop ≤ k) (hk : position ≤ k) : t.drop (k - position) <:+ out := by
  induction h with
  | keep => exact List.drop_suffix _ _
  | @replace position kept old t out r rs hspan _ ih =>
    obtain ⟨hr, hspans⟩ := List.forall_mem_cons.1 hspans
    have hstop : position + kept.length + old.length ≤ k := by
      rw [hspan] at hr
      exact hr
    have hdrop : (kept ++ (old ++ t)).drop (k - position) =
        t.drop (k - (position + kept.length + old.length)) := by
      rw [List.drop_append, List.drop_append, List.drop_eq_nil_of_le (by omega),
        List.drop_eq_nil_of_le (by omega), List.nil_append, List.nil_append]
      congr 1
      omega
    rw [hdrop]
    exact (ih hspans hstop).trans
      ((List.suffix_append _ out).trans (List.suffix_append kept _))

theorem mem_replacements_iff : r ∈ replacements source base ↔
    ∃ o, replacementOf? source (nameOf o) (lineOf base o) = some r := by
  rw [replacements_eq, (perm_sortBy _ _).mem_iff, List.mem_filterMap]
  exact ⟨fun ⟨o, _, ho⟩ => ⟨o, ho⟩, fun ⟨o, ho⟩ => ⟨o, mem_order o, ho⟩⟩

theorem exists_replacementOf? (base : Text) {o : Option Category} {found : Span}
    (h : firstOccurrence? (definitionOf (nameOf o)) source = some found) :
    ∃ r, replacementOf? source (nameOf o) (lineOf base o) = some r :=
  ⟨_, by rw [replacementOf?, h]; rfl⟩

theorem exists_of_replacementOf? {name new : Text} (h : replacementOf? source name new = some r) :
    ∃ u v x, source = u ++ v ∧ definitionOf name v = some x ∧
      (u.foldl LineState.step .start).admits = true ∧
      IsSilentBefore (definitionOf name) .start u v ∧
      r = ⟨⟨u.length, u.length + definitionLength v⟩, new⟩ := by
  obtain ⟨found, hfound, rfl⟩ := Option.map_eq_some_iff.1 h
  obtain ⟨u, v, x, rfl, -, hs, hm, hu, hstart⟩ := exists_of_firstOccurrence? hfound
  exact ⟨u, v, x, rfl, hm, hs, hu, by rw [hstart, List.drop_left]⟩

theorem definitionLength_le_length (t : Text) : definitionLength t ≤ t.length := by
  have hline := firstLineLength_le t
  cases hn : statementLength? t with
  | none => simpa only [definitionLength, hn] using hline
  | some n =>
    obtain ⟨⟨x, rest⟩, hcut, rfl⟩ := Option.map_eq_some_iff.1 hn
    have ht := congrArg List.length (append_of_cutAt? hcut)
    have hrest : rest ≠ [] := fun hnil => by
      obtain ⟨-, c, hc, -⟩ := passes_of_cutAt? hcut
      rw [hnil] at hc
      cases hc
    have hpos := List.length_pos_iff.2 hrest
    rw [List.length_append] at ht
    simp only [definitionLength, hn]
    split
    · exact hline
    · omega

theorem firstLineLength_pos {c : Char} (hfeed : c ≠ '\n') (hreturn : c ≠ '\r') (t : Text) :
    0 < firstLineLength (c :: t) := by
  rw [firstLineLength, List.takeWhile_cons_of_pos (by simpa using hfeed)]
  cases t.takeWhile (· ≠ '\n') with
  | nil => simp [dropReturn, hreturn]
  | cons d w =>
    unfold dropReturn
    split <;> simp

theorem definitionLength_pos {name t x : Text} (h : definitionOf name t = some x) :
    0 < definitionLength t := by
  obtain ⟨more, rfl⟩ := definitionOf_starts h
  have hline : 0 < firstLineLength ("export".toList ++ more) :=
    firstLineLength_pos (c := 'e') (by decide) (by decide) _
  cases hn : statementLength? ("export".toList ++ more) with
  | none => simpa only [definitionLength, hn] using hline
  | some n =>
    obtain ⟨y, -, rfl⟩ := Option.map_eq_some_iff.1 hn
    simp only [definitionLength, hn]
    split
    · exact hline
    · exact Nat.succ_pos _

theorem bounds_of_mem_replacements (h : r ∈ replacements source base) :
    r.span.start < r.span.stop ∧ r.span.stop ≤ source.length := by
  obtain ⟨o, ho⟩ := mem_replacements_iff.1 h
  obtain ⟨u, v, x, rfl, hm, -, -, rfl⟩ := exists_of_replacementOf? ho
  have hpos := definitionLength_pos hm
  have hle := definitionLength_le_length v
  have hstop : u.length + definitionLength v ≤ (u ++ v).length := by
    rw [List.length_append]
    omega
  exact ⟨Nat.lt_add_of_pos_right hpos, hstop⟩

theorem pairwise_replacements (hapart : ∀ o m r s, o ≠ m →
    replacementOf? source (nameOf o) (lineOf base o) = some r →
    replacementOf? source (nameOf m) (lineOf base m) = some s →
    r.span.start ≤ s.span.start → r.InFront s) :
    (replacements source base).Pairwise Replacement.InFront := by
  let found : Option Category → Option Replacement := fun o =>
    replacementOf? source (nameOf o) (lineOf base o)
  have horder : order.Nodup := by decide
  -- being apart does not depend on the order in which two definitions are taken
  have hfound : (order.filterMap found).Pairwise fun r s =>
      (r.span.start ≤ s.span.start → r.InFront s) ∧
        (s.span.start ≤ r.span.start → s.InFront r) := by
    refine List.pairwise_filterMap.2 (List.Pairwise.imp ?_ horder)
    intro o m hne r hr s hs
    exact ⟨hapart o m r s hne hr hs, hapart m o s r (Ne.symm hne) hs hr⟩
  have hsorted := @pairwise_sortBy _ (fun r s : Replacement => r.span.start ≤ s.span.start)
    (fun a b => by simpa using Nat.le_total a.span.start b.span.start)
    (fun hab hbc => by simpa using Nat.le_trans (of_decide_eq_true hab) (of_decide_eq_true hbc))
    (order.filterMap found)
  have hall := (perm_sortBy (fun r s : Replacement => r.span.start ≤ s.span.start)
    (order.filterMap found)).symm.pairwise hfound fun h => ⟨h.2, h.1⟩
  rw [replacements_eq]
  exact (hsorted.and hall).imp fun ⟨hle, hfront, _⟩ => hfront (of_decide_eq_true hle)

theorem length_replacements (source base : Text) :
    (replacements source base).length =
      (order.filterMap fun o => replacementOf? source (nameOf o) (lineOf base o)).length := by
  rw [replacements_eq, (perm_sortBy _ _).length_eq]

/-- Where there are definitions that are apart, the new text is the source with their spans
replaced. -/
theorem rewrites_of_retarget {t : Text} {n : Nat} (h : retarget source base = .ok (t, n))
    (hne : replacements source base ≠ [])
    (hfront : (replacements source base).Pairwise Replacement.InFront) :
    Rewrites 0 source (replacements source base) t ∧ n = (replacements source base).length := by
  rw [retarget_of_replacements rfl hne] at h
  obtain ⟨rfl, rfl⟩ := Prod.mk.inj (Except.ok.inj h)
  have hspans : ∀ r ∈ replacements source base,
      r.span.start ≤ r.span.stop ∧ r.span.stop ≤ source.length := fun r hr =>
    have ⟨hlt, hle⟩ := bounds_of_mem_replacements hr
    ⟨Nat.le_of_lt hlt, hle⟩
  have hsplice : Rewrites 0 (source.drop 0) (replacements source base)
      (splice source 0 (replacements source base)) :=
    rewrites_splice hfront hspans fun r _ => Nat.zero_le _
  exact ⟨hsplice, rfl⟩

end IconCatalog.ImageHelper
