import IconCatalog.Proofs.Text.Blank
import IconCatalog.RemotePattern.Patch
/-!
A patched configuration mentions the host it was patched for, whichever way the patch took. Where no
legacy host gives way to it, the pattern is put between two parts of the text, and nothing but
blanks between them goes.
-/
namespace IconCatalog
open Text

namespace Text

theorem infix_replaceAll {old new t : Text} (h : old <:+: t) : new <:+: replaceAll old new t := by
  fun_induction replaceAll old new t with
  | case1 => exact List.infix_rfl
  | case2 hold => exact absurd (List.infix_nil.1 h) hold
  | case3 c t hnone ih =>
    cases List.infix_cons_iff.1 h with
    | inl hstart =>
      obtain ⟨rest, hrest⟩ := hstart
      exact nomatch hnone.symm.trans (after?_eq_some_iff.2 hrest.symm)
    | inr hlater => exact List.infix_cons (ih hlater)
  | case4 c t hsome ih => exact (List.prefix_append new _).isInfix
  | case5 c t rest hsome hold ih => exact (List.prefix_append new _).isInfix

end Text

namespace RemotePattern
variable {host t patched : Text}

theorem infix_entry (host : Text) : host <:+: entry host := List.infix_append _ _ _

theorem infix_arrayProperty (host : Text) : entry host <:+: arrayProperty host :=
  List.infix_append _ _ _

theorem infix_imagesProperty (host : Text) : entry host <:+: imagesProperty host :=
  (infix_arrayProperty host).trans (List.infix_append _ _ _)

theorem infix_freshConfig (host : Text) : entry host <:+: freshConfig host :=
  (infix_imagesProperty host).trans (List.infix_append _ _ _)

theorem infix_insertAt (t : Text) (position : Nat) (inserted : Text) :
    inserted <:+: insertAt t position inserted := List.infix_append _ _ _

theorem infix_append? {start : Nat} (h : append? t start host = some patched) :
    entry host <:+: patched := by
  obtain ⟨⟨inside, rest⟩, -, rfl⟩ := Option.map_eq_some_iff.1 h
  have hrest {a b c : Text} : a <+: a ++ b ++ c := by
    rw [List.append_assoc]
    exact List.prefix_append a (b ++ c)
  exact (List.infix_append _ _ _).trans hrest.isInfix

theorem mentions_freshConfig (host : Text) : mentions host (freshConfig host) = true :=
  mentions_iff.2 ((infix_entry host).trans (infix_freshConfig host))

theorem mentions_of_patch? {legacy : List Text} (h : patch? t host legacy = some patched) :
    mentions host patched = true := by
  refine mentions_iff.2 ?_
  have hentry {t : Text} (ht : entry host <:+: t) : host <:+: t := (infix_entry host).trans ht
  rw [patch?] at h
  split at h
  · next old hold =>
    obtain rfl := Option.some.inj h
    have hmentions : mentions old t = true := List.find?_some (p := (mentions · t)) hold
    exact infix_replaceAll (mentions_iff.1 hmentions)
  split at h
  · exact hentry (infix_append? h)
  split at h
  · obtain rfl := Option.some.inj h
    exact hentry ((infix_arrayProperty host).trans (infix_insertAt _ _ _))
  · obtain ⟨found, -, rfl⟩ := Option.map_eq_some_iff.1 h
    exact hentry ((infix_imagesProperty host).trans (infix_insertAt _ _ _))

/-- The new text is the old one with `inserted` in the place of some blanks. -/
def IsInsertion (inserted old new : Text) : Prop :=
  ∃ a w b, old = a ++ w ++ b ∧ (∀ c ∈ w, isBlank c = true) ∧ new = a ++ inserted ++ b

theorem isInsertion_insertAt (t : Text) (position : Nat) (inserted : Text) :
    IsInsertion inserted t (insertAt t position inserted) :=
  ⟨t.take position, [], t.drop position, by simp, by simp, rfl⟩

theorem IsInsertion.sublist {inserted old new : Text} (h : IsInsertion inserted old new) :
    (old.filter (!isBlank ·)).Sublist new := by
  obtain ⟨a, w, b, rfl, hw, rfl⟩ := h
  have hnone : w.filter (!isBlank ·) = [] := by
    refine List.filter_eq_nil_iff.2 fun c hc => ?_
    simp [hw c hc]
  rw [List.filter_append, List.filter_append, hnone, List.append_nil, List.append_assoc]
  exact List.filter_sublist.append (List.filter_sublist.trans (List.sublist_append_right ..))

theorem append_of_cutAtClosing? {depth : Nat} {t inside rest : Text}
    (h : cutAtClosing? depth t = some (inside, rest)) : t = inside ++ rest := by
  induction t generalizing depth inside with
  | nil => exact nomatch h
  | cons c t ih =>
    rw [cutAtClosing?] at h
    split at h
    · obtain ⟨rfl, rfl⟩ := Prod.mk.inj (Option.some.inj h)
      rfl
    · obtain ⟨⟨inside', rest'⟩, hcut, heq⟩ := Option.map_eq_some_iff.1 h
      obtain ⟨rfl, rfl⟩ := Prod.mk.inj heq
      rw [ih hcut]
      rfl

theorem exists_isInsertion_append? {start : Nat} (h : append? t start host = some patched) :
    ∃ inserted, entry host <:+: inserted ∧ IsInsertion inserted t patched := by
  obtain ⟨⟨inside, rest⟩, hcut, rfl⟩ := Option.map_eq_some_iff.1 h
  obtain ⟨w, hw, hblank⟩ := exists_trimEnd (t.take start ++ inside)
  have ht : t = t.take start ++ inside ++ rest := by
    rw [List.append_assoc, ← append_of_cutAtClosing? hcut, List.take_append_drop]
  dsimp only
  let elements := trim inside
  let comma := if elements = [] || elements.getLast? = some ',' then [] else [',']
  let indent := lastLine (t.take start ++ inside)
  refine ⟨comma ++ "\n".toList ++ entry host ++ (",\n".toList ++
    if isAllBlank indent then indent else []), List.infix_append _ _ _,
    trimEnd (t.take start ++ inside), w, rest, ?_, hw, ?_⟩
  · rw [← hblank, ← ht]
  · simp only [List.append_assoc, comma, elements, indent]

/-- Where no legacy host is mentioned, a patch inserts the pattern and keeps the rest. -/
theorem exists_isInsertion_patch? {legacy : List Text} (h : patch? t host legacy = some patched)
    (hlegacy : ∀ old ∈ legacy, mentions old t = false) :
    ∃ inserted, entry host <:+: inserted ∧ IsInsertion inserted t patched := by
  have hnone : legacy.find? (mentions · t) = none :=
    List.find?_eq_none.2 fun old hold => by simp [hlegacy old hold]
  rw [patch?, hnone] at h
  dsimp only at h
  split at h
  · exact exists_isInsertion_append? h
  split at h
  · obtain rfl := Option.some.inj h
    exact ⟨_, infix_arrayProperty host, isInsertion_insertAt _ _ _⟩
  · obtain ⟨found, -, rfl⟩ := Option.map_eq_some_iff.1 h
    exact ⟨_, infix_imagesProperty host, isInsertion_insertAt _ _ _⟩

end RemotePattern
end IconCatalog
