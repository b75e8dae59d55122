import IconCatalog.Edit
import IconCatalog.Proofs.Sorted
/-!
What an edit makes of the table and of the members it has read: one entry more in the group of the
category, or those of a name less, and the members in line with that group.
-/
namespace IconCatalog
open Text

namespace Table
variable {t : Table} {c : Category} {name : Text}

theorem holds_iff : t.holds c name = true ↔ ∃ e ∈ t.group c, e.name = name := by
  simp [holds]

theorem find?_eq_none_of_unused (h : ∀ c, ∀ e ∈ t.group c, e.name ≠ name) :
    t.find? name = none := by
  refine find?_eq_none_iff.2 fun c => Bool.eq_false_iff.2 fun hholds => ?_
  obtain ⟨e, he, hname⟩ := holds_iff.1 hholds
  exact h c e he hname

theorem insert_of_used {e : Entry} (h : t.find? e.name ≠ none) : t.insert c e = t := by
  cases hf : t.find? e.name with
  | none => exact absurd hf h
  | some owner => rw [insert, hf, Option.isSome_some, if_pos rfl]

theorem group_insert {e : Entry} (h : t.find? e.name = none) (k : Category) :
    (t.insert c e).group k =
      if k = c then sortBy Entry.atMost (t.group c ++ [e]) else t.group k := by
  rw [insert, h, Option.isSome_none, if_neg Bool.false_ne_true, group_setGroup]

theorem find?_insert {e : Entry} (hunused : t.find? e.name = none) :
    (t.insert c e).find? e.name = some c := by
  have hholds (k : Category) : (t.insert c e).holds k e.name = decide (k = c) := by
    rw [Bool.eq_iff_iff, holds_iff, group_insert hunused, decide_eq_true_iff]
    by_cases hk : k = c
    · have hmem : e ∈ sortBy Entry.atMost (t.group c ++ [e]) :=
        (perm_sortBy _ _).mem_iff.2 (by simp)
      rw [if_pos hk]
      exact ⟨fun _ => hk, fun _ => ⟨e, hmem, rfl⟩⟩
    · have hnot := find?_eq_none_iff.1 hunused k
      rw [if_neg hk, ← holds_iff, hnot]
      simp [hk]
  unfold find?
  simp only [hholds]
  cases c <;> rfl

theorem group_erase (k : Category) :
    (t.erase c name).group k =
      if k = c then (t.group c).filter (·.name ≠ name) else t.group k := by
  rw [erase, group_setGroup]

theorem erase_of_not_holds (h : t.holds c name = false) : t.erase c name = t := by
  refine ext_group fun k => ?_
  rw [group_erase]
  split
  · next hk =>
    subst hk
    refine List.filter_eq_self.2 fun e he => ?_
    have hne : e.name ≠ name := fun hname => by
      rw [holds_iff.2 ⟨e, he, hname⟩] at h
      exact absurd h (by simp)
    simpa using hne
  · rfl

end Table

namespace Members

theorem getD_insert (ms : Members) (name : Text) :
    (if ms.contains name then none else some (ms.insert name)).getD ms = ms.insert name := by
  by_cases h : ms.contains name = true
  · rw [if_pos h, Option.getD_none, insert, if_pos h]
  · rw [if_neg h, Option.getD_some]

theorem getD_erase (ms : Members) (name : Text) :
    (if ms.contains name then some (ms.erase name) else none).getD ms = ms.erase name := by
  by_cases h : ms.contains name = true
  · rw [if_pos h, Option.getD_some]
  · rw [if_neg h, Option.getD_none]
    refine (List.filter_eq_self.2 fun m hm => ?_).symm
    have hne : m ≠ name := fun hname => h (by simpa [← hname] using hm)
    simpa using hne

theorem erase_insert {name : Text} {ms ns : List Text} (hfresh : name ∉ ms ++ ns) :
    erase (ms ++ name :: ns) name = ms ++ ns := by
  have hall : (ms ++ ns).filter (· ≠ name) = ms ++ ns := by
    refine List.filter_eq_self.2 fun m hm => ?_
    have hne : m ≠ name := fun hmn => hfresh (hmn ▸ hm)
    simpa using hne
  rw [List.filter_append] at hall
  rw [erase, List.filter_append, List.filter_cons_of_neg (by simp), hall]

end Members

namespace Revision
variable {w : Workshop} {c : Category} {name : Text}

def tableOf (action : Action) (w : Workshop) (c : Category) (name : Text) (t : Table) : Table :=
  match action with
  | .add => t.insert c (.ofIcon c name w.artwork)
  | .remove => t.erase c name

/-- The members that an edit is to leave. A name of another category is not added. -/
def membersOf (action : Action) (c : Category) (name : Text) (t : Table) (ms : Members) : Members :=
  match action with
  | .add => if (t.find? name).all (· = c) then ms.insert name else ms
  | .remove => ms.erase name

@[simp] theorem ofIcon_name (c : Category) (name : Text) (artwork : Artwork) :
    (Entry.ofIcon c name artwork).name = name := by
  unfold Entry.ofIcon
  split <;> rfl

theorem table?_getD (action : Action) (t : Table) (ms : Members) :
    (make action w c name t ms).table?.getD t = tableOf action w c name t := by
  cases action with
  | add =>
    simp only [make, add, tableOf]
    cases hf : t.find? name with
    | none => rfl
    | some owner =>
      rw [Table.insert_of_used (by simp [hf])]
      by_cases howner : owner = c
      · simp [howner]
      · simp [howner, none]
  | remove =>
    simp only [make, remove, tableOf]
    by_cases h : t.holds c name = true
    · simp [h]
    · rw [Table.erase_of_not_holds (by simpa using h)]
      simp only [h, Bool.false_eq_true, if_false]
      cases t.find? name <;> rfl

theorem members?_remove (t : Table) (ms : Members) :
    (make .remove w c name t ms).members? =
      if ms.contains name then some (ms.erase name) else .none := by
  simp only [make, remove]
  split
  · rfl
  · cases t.find? name <;> rfl

theorem members?_getD (action : Action) (t : Table) (ms : Members) :
    (make action w c name t ms).members?.getD ms = membersOf action c name t ms := by
  cases action with
  | add =>
    simp only [make, add, membersOf]
    cases t.find? name with
    | none => exact Members.getD_insert ms name
    | some owner =>
      by_cases howner : owner = c
      · simp only [howner, if_true, Option.all_some, decide_true]
        exact Members.getD_insert ms name
      · simp [howner, none]
  | remove =>
    rw [members?_remove]
    exact Members.getD_erase ms name

theorem mem_membersOf {action : Action} {t : Table} {ms : Members} {m : Text}
    (h : m ∈ membersOf action c name t ms) : m ∈ ms ∨ m = name := by
  cases action with
  | add =>
    simp only [membersOf, Members.insert] at h
    split at h
    · split at h
      · exact .inl h
      · rw [(perm_sortBy _ _).mem_iff] at h
        simpa using h
    · exact .inl h
  | remove => exact .inl (List.mem_filter.1 h).1

theorem membersOf_map_name (action : Action) (t : Table) :
    membersOf action c name t ((t.group c).map (·.name)) =
      ((tableOf action w c name t).group c).map (·.name) := by
  have hcontains : ((t.group c).map (·.name)).contains name = t.holds c name := by
    rw [Bool.eq_iff_iff, Table.holds_iff]
    simp
  cases action with
  | add =>
    cases hf : t.find? name with
    | none =>
      have hfree := Table.find?_eq_none_iff.1 hf c
      have hsort (l : List Entry) :
          (sortBy Entry.atMost l).map (·.name) = sortBy atMost (l.map (·.name)) :=
        map_sortBy Entry.name (fun _ _ => rfl) l
      simp only [membersOf, tableOf, hf, Option.all_none, if_true, Members.insert, hcontains, hfree]
      rw [Table.group_insert (by rw [ofIcon_name, hf]), if_pos rfl, hsort]
      simp
    | some owner =>
      have hsame : tableOf .add w c name t = t := Table.insert_of_used (by simp [hf])
      rw [hsame]
      simp only [membersOf, hf, Option.all_some]
      by_cases howner : owner = c
      · have hholds : t.holds owner name = true := List.find?_some (p := (t.holds · name)) hf
        rw [howner, ← hcontains] at hholds
        rw [if_pos (by simpa using howner), Members.insert, if_pos hholds]
      · simp [howner]
  | remove =>
    simp only [membersOf, tableOf, Members.erase, Table.group_erase, if_true, List.filter_map,
      Function.comp_def]

theorem group_tableOf_of_ne (action : Action) (t : Table) {k : Category} (hk : k ≠ c) :
    (tableOf action w c name t).group k = t.group k := by
  cases action with
  | add =>
    by_cases hf : t.find? name = .none
    · rw [tableOf, Table.group_insert (by rw [ofIcon_name, hf]), if_neg hk]
    · rw [tableOf, Table.insert_of_used (by rw [ofIcon_name]; exact hf)]
  | remove => rw [tableOf, Table.group_erase, if_neg hk]

theorem find?_tableOf_add {t : Table} (h : t.find? name = .none) :
    (tableOf .add w c name t).find? name = some c := by
  have hused := Table.find?_insert (c := c) (e := .ofIcon c name w.artwork) (by rw [ofIcon_name, h])
  rwa [ofIcon_name] at hused

theorem table?_tableOf (action : Action) (t : Table) (ms : Members) :
    (make action w c name (tableOf action w c name t) ms).table? = .none := by
  cases action with
  | add =>
    cases hf : t.find? name with
    | none =>
      simp [make, add, find?_tableOf_add (w := w) (c := c) hf]
    | some owner =>
      rw [tableOf, Table.insert_of_used (by simp [hf])]
      by_cases howner : owner = c
      · simp [make, add, hf, howner]
      · simp [make, add, hf, howner, none]
  | remove =>
    have hnot : (t.erase c name).holds c name = false := by
      simp [Table.holds, Table.group_erase]
    simp only [make, remove, tableOf, hnot, Bool.false_eq_true, if_false]
    cases (t.erase c name).find? name <;> rfl

theorem members?_tableOf (action : Action) (t : Table) (ms : Members) :
    (make action w c name (tableOf action w c name t) ms).members? =
      (make action w c name t ms).members? := by
  cases action with
  | add =>
    cases hf : t.find? name with
    | none =>
      simp [make, add, find?_tableOf_add (w := w) (c := c) hf, hf]
    | some owner => rw [tableOf, Table.insert_of_used (by simp [hf])]
  | remove => rw [members?_remove, members?_remove]

variable {t : Table} {ms : Members}

theorem report_of_none {r : Revision} (ht : r.table? = .none) (hm : r.members? = .none) :
    r.report = ⟨.unchanged, .unchanged⟩ := by
  simp [report, ht, hm]

theorem report_add_of_unused (ht : t.find? name = .none) (hm : name ∉ ms) :
    (make .add w c name t ms).report = ⟨.applied, .applied⟩ := by
  simp [make, add, report, ht, hm]

theorem add_of_used (ht : t.find? name = some c) (hm : name ∈ ms) :
    (make .add w c name t ms).table? = .none ∧ (make .add w c name t ms).members? = .none := by
  simp [make, add, ht, hm]

theorem report_remove_of_used (ht : t.holds c name = true) (hm : name ∈ ms) :
    (make .remove w c name t ms).report = ⟨.applied, .applied⟩ := by
  simp [make, remove, report, ht, hm]

theorem remove_of_unused (ht : t.find? name = .none) (hm : name ∉ ms) :
    (make .remove w c name t ms).table? = .none ∧
      (make .remove w c name t ms).members? = .none := by
  simp [make, remove, ht, hm, Table.find?_eq_none_iff.1 ht c]

end Revision

end IconCatalog
