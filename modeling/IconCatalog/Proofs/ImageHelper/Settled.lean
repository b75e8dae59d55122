import IconCatalog.Proofs.ImageHelper.Splice
/-!
Where definitions are found after some of them were replaced. What stands behind a replaced span is
read as before if its line is in the same state there, or if no definition starts in the rest of it.
-/
namespace IconCatalog.ImageHelper
open Text Source
variable {source base t : Text} {rs : List Replacement} {r : Replacement} {s s' : LineState}
  {o : Option Category}

def lineState (t : Text) : LineState := t.foldl LineState.step .start

def IsBareLine (t : Text) : Prop :=
  ∀ o u v, t = u ++ v → '\n' ∉ u → definitionOf (nameOf o) v = none

/-- In front of the text, two states of the line make no difference for definitions. -/
def Agree (s s' : LineState) (t : Text) : Prop := s = s' ∨ IsBareLine t

/-- Behind the replaced span, its line is read as before. -/
def Replacement.IsSettled (source : Text) (r : Replacement) : Prop :=
  Agree (lineState (source.take r.span.stop)) (lineState (source.take r.span.start ++ r.text))
    (source.drop r.span.stop)

/-- Two texts that are the same or that both open with a declaration. -/
def IsAlike (t t' : Text) : Prop := t = t' ∨ Opens t ∧ Opens t'

theorem lineState_append (a b : Text) :
    lineState (a ++ b) = b.foldl LineState.step (lineState a) := List.foldl_append

theorem foldl_step_eq {u : Text} (h : '\n' ∈ u) (s s' : LineState) :
    u.foldl LineState.step s = u.foldl LineState.step s' := by
  obtain ⟨a, b, rfl⟩ := List.append_of_mem h
  rw [List.foldl_append, List.foldl_append]
  rfl

theorem Agree.append {u v : Text} (h : Agree s s' (u ++ v)) :
    Agree (u.foldl LineState.step s) (u.foldl LineState.step s') v := by
  by_cases hfeed : '\n' ∈ u
  · exact .inl (foldl_step_eq hfeed s s')
  · refine h.imp (fun hs => by rw [hs]) fun hbare o a b hsplit ha => ?_
    exact hbare o (u ++ a) b (by rw [hsplit, List.append_assoc]) (by simp [hfeed, ha])

theorem Agree.eq {u v : Text} (h : Agree s s' (u ++ v))
    (hm : (definitionOf (nameOf o) v).isSome) :
    u.foldl LineState.step s = u.foldl LineState.step s' := by
  refine h.append.resolve_right fun hbare => ?_
  rw [hbare o [] v rfl (by simp)] at hm
  exact nomatch hm

theorem isSilentBefore_of_agree {u h h' : Text}
    (hu : IsSilentBefore (definitionOf (nameOf o)) s u h) (hagree : Agree s s' (u ++ h))
    (halike : IsAlike h h') : IsSilentBefore (definitionOf (nameOf o)) s' u h' := by
  intro x y hxy hy hs
  have hnone : definitionOf (nameOf o) (y ++ h) = none := by
    cases hm : definitionOf (nameOf o) (y ++ h) with
    | none => rfl
    | some r =>
      rw [hxy, List.append_assoc] at hagree
      rw [← hagree.eq (by rw [hm]; rfl)] at hs
      rw [← hm, hu x y hxy hy hs]
  rcases halike with rfl | ⟨hopens, hopens'⟩
  · exact hnone
  · exact definitionOf_eq_none_of_opens hy hopens hopens' hnone

theorem exists_of_mem_replacements (h : r ∈ replacements source base) {u old v : Text}
    (hsource : source = u ++ (old ++ v))
    (hspan : r.span = ⟨u.length, u.length + old.length⟩) :
    ∃ o, r.text = lineOf base o ∧ (definitionOf (nameOf o) (old ++ v)).isSome ∧
      (lineState u).admits = true ∧ old ≠ [] := by
  have hbounds := (bounds_of_mem_replacements h).1
  obtain ⟨o, ho⟩ := mem_replacements_iff.1 h
  obtain ⟨a, b, x, hab, hm, hs, -, rfl⟩ := exists_of_replacementOf? ho
  rw [hspan] at hbounds
  have hold : old ≠ [] := by
    rintro rfl
    exact Nat.lt_irrefl _ hbounds
  obtain ⟨hstart, -⟩ := Span.mk.inj hspan
  obtain ⟨rfl, rfl⟩ := List.append_inj (hab.symm.trans hsource) hstart
  exact ⟨o, rfl, by rw [hm]; rfl, hs, hold⟩

theorem Replacement.IsSettled.agree (h : r.IsSettled source) {u old v : Text}
    (hsource : source = u ++ (old ++ v))
    (hspan : r.span = ⟨u.length, u.length + old.length⟩) :
    Agree (lineState (u ++ old)) (lineState (u ++ r.text)) v := by
  rw [IsSettled, hspan, hsource, List.take_left, ← List.append_assoc, ← List.length_append,
    List.take_left, List.drop_left] at h
  exact h

theorem isSilentBefore_of_rewrites (hbase : IsAddress base) (front : Text) {u u' h h' : Text}
    (hrw : Rewrites front.length u rs u') (hsource : source = front ++ (u ++ h))
    (hmem : ∀ r ∈ rs, r ∈ replacements source base) (hsettled : ∀ r ∈ rs, r.IsSettled source)
    (hagree : Agree (lineState front) s' (u ++ h)) (halike : IsAlike h h')
    (hu : IsSilentBefore (definitionOf (nameOf o)) (lineState front) u h) :
    IsSilentBefore (definitionOf (nameOf o)) s' u' h' ∧
      Agree (lineState (front ++ u)) (u'.foldl LineState.step s') h := by
  generalize hposition : front.length = position at hrw
  induction hrw generalizing front s' with
  | keep =>
    refine ⟨isSilentBefore_of_agree hu hagree halike, ?_⟩
    rw [lineState_append]
    exact hagree.append
  | @replace position kept old t out r rs hspan _ ih =>
    obtain ⟨hr, hmem⟩ := List.forall_mem_cons.1 hmem
    obtain ⟨hsettles, hsettled⟩ := List.forall_mem_cons.1 hsettled
    simp only [List.append_assoc] at hsource hagree hu
    rw [← hposition, ← List.length_append] at hspan
    obtain ⟨m, htext, hm, hadmits, hold⟩ := exists_of_mem_replacements hr
      (hsource.trans (List.append_assoc ..).symm) hspan
    have hbehind := hsettles.agree (hsource.trans (List.append_assoc ..).symm) hspan
    obtain ⟨hkept, hafter⟩ := isSilentBefore_append_iff.1 hu
    obtain ⟨hspan, hafter⟩ := isSilentBefore_append_iff.1 hafter
    rw [List.append_assoc] at hkept
    have hstate := hagree.eq hm
    rw [lineState_append] at hadmits
    rw [htext, lineState_append, lineState_append (front ++ kept), lineState_append front]
      at hbehind
    -- the definition that starts here is none of the name that is not found
    have hne : o ≠ m := by
      rintro rfl
      rw [hspan [] old rfl hold hadmits] at hm
      exact nomatch hm
    have hfirst := isSilentBefore_of_agree hkept hagree
      (.inr ⟨opens_of_definitionOf (Option.eq_some_of_isSome hm), opens_line base m (out ++ h')⟩)
    have hline := (isInert_lineOf hbase hne).isSilentBefore (kept.foldl LineState.step s')
      (out ++ h')
    have hrest := ih (front ++ kept ++ old)
      (by simpa using hsource) hmem hsettled
      (by simpa only [lineState_append, hstate] using hbehind)
      (by simpa only [lineState_append] using hafter)
      (by rw [List.length_append, List.length_append, hposition])
    rw [htext]
    refine ⟨isSilentBefore_append_iff.2 ⟨?_, isSilentBefore_append_iff.2 ⟨hline, hrest.1⟩⟩, ?_⟩
    · rw [List.append_assoc]
      exact hfirst
    · simpa only [List.append_assoc, List.foldl_append] using hrest.2

theorem Rewrites.split {position : Nat} {u u' : Text} {ps qs : List Replacement}
    (h : Rewrites position u (ps ++ r :: qs) u') :
    ∃ a old b a' b', u = a ++ (old ++ b) ∧ u' = a' ++ (r.text ++ b') ∧
      Rewrites position a ps a' ∧
      r.span = ⟨position + a.length, position + a.length + old.length⟩ := by
  induction ps generalizing position u u' with
  | nil =>
    cases h with
    | replace hspan _ => exact ⟨_, _, _, _, _, rfl, rfl, .keep, hspan⟩
  | cons p ps ih =>
    cases h with
    | @replace _ kept old t out _ _ hspan hrest =>
      obtain ⟨a, old', b, a', b', rfl, rfl, ha, hr⟩ := ih hrest
      refine ⟨kept ++ (old ++ a), old', b, kept ++ (p.text ++ a'), b', by simp, by simp,
        .replace hspan ha, ?_⟩
      rw [hr]
      simp only [List.length_append, Nat.add_assoc]

/-- After settled replacements, the same definitions are found, each as its new line. -/
theorem firstOccurrence?_of_rewrites (hbase : IsAddress base)
    (hrw : Rewrites 0 source (replacements source base) t)
    (hsettled : ∀ r ∈ replacements source base, r.IsSettled source) (o : Option Category) :
    (firstOccurrence? (definitionOf (nameOf o)) source = none →
      firstOccurrence? (definitionOf (nameOf o)) t = none) ∧
    ∀ found, firstOccurrence? (definitionOf (nameOf o)) source = some found →
      ∃ found', firstOccurrence? (definitionOf (nameOf o)) t = some found' ∧
        lineOf base o <+: t.drop found'.start := by
  constructor
  · intro hnone
    have hsilent := firstOccurrence?_eq_none_iff.1 hnone
    have halike : IsAlike [] [] := .inl rfl
    have hrest := isSilentBefore_of_rewrites hbase [] hrw (List.append_nil source).symm
      (fun r hr => hr) hsettled (.inl rfl) halike (isSilentBefore_nil_iff.2 hsilent)
    exact firstOccurrence?_eq_none_iff.2 (isSilentBefore_nil_iff.1 hrest.1)
  · intro found hfound
    obtain ⟨r, hr⟩ := exists_replacementOf? base hfound
    obtain ⟨ps, qs, hlist⟩ := List.append_of_mem (mem_replacements_iff.2 ⟨o, hr⟩)
    have hps : ∀ p ∈ ps, p ∈ replacements source base := fun p hp => by
      rw [hlist]
      exact List.mem_append_left _ hp
    rw [hlist] at hrw
    obtain ⟨a, old, b, a', b', ha, rfl, hfront, hspan⟩ := hrw.split
    obtain ⟨u, v, x, huv, hm, hs, hsilent, rfl⟩ := exists_of_replacementOf? hr
    rw [Nat.zero_add] at hspan
    obtain ⟨rfl, rfl⟩ := List.append_inj (ha.symm.trans huv) (Span.mk.inj hspan).1.symm
    obtain ⟨hbefore, hagree⟩ := isSilentBefore_of_rewrites hbase [] hfront ha hps
      (fun r hr => hsettled r (hps r hr)) (.inl rfl)
      (.inr ⟨opens_of_definitionOf hm, opens_line base o b'⟩) hsilent
    have hstate := Agree.eq (u := []) (o := o) (v := old ++ b) hagree (by rw [hm]; rfl)
    obtain ⟨y, hy⟩ := Option.isSome_iff_exists.1 (definitionOf_line base b' o)
    have hfirst := firstOccurrence?_of_match hbefore (opens_line base o b').ne_nil
      (by rw [← hs]; exact congrArg _ hstate.symm) hy
    refine ⟨_, hfirst, ?_⟩
    rw [List.drop_left]
    exact List.prefix_append _ _

end IconCatalog.ImageHelper
