import Mathlib.Data.List.Nodup
import IconCatalog.Proofs.Edit.Revision
import IconCatalog.Proofs.Enumeration.Value
/-!
Insertions and removals one by one, on a table and on the members of an enumeration. A step tells
whether it does something, and it does nothing to other names. So two steps with different names may
be exchanged, whatever the table holds, and a batch of them may be put in any order.
-/
namespace IconCatalog
open Text

theorem foldl_perm_of_comm {σ α κ : Type} {step : σ → α → σ} {key : α → κ}
    (comm : ∀ s x y, key x ≠ key y → step (step s x) y = step (step s y) x) {xs ys : List α}
    (hperm : xs.Perm ys) (hkeys : (xs.map key).Nodup) (s : σ) :
    xs.foldl step s = ys.foldl step s := by
  refine hperm.foldl_eq' (fun x hx y hy s => ?_) s
  by_cases hxy : key x = key y
  · rw [List.inj_on_of_nodup_map hkeys hx hy hxy]
  · exact comm s x y hxy

namespace Table

inductive Step where
  | insert (category : Category) (entry : Entry)
  | erase (category : Category) (name : Text)

namespace Step

def category : Step → Category
  | insert c _ => c
  | erase c _ => c

def name : Step → Text
  | insert _ e => e.name
  | erase _ name => name

def edit : Step → ListEdit Entry Text
  | insert _ e => .add e
  | erase _ name => .drop name

@[simp] theorem about_edit (x : Step) : x.edit.about Entry.name = x.name := by cases x <;> rfl

end Step

def change (t : Table) : Step → Table
  | .insert c e => t.insert c e
  | .erase c name => t.erase c name

/-- Whether a step does something: an entry is inserted if its name is in no group, and a name is
taken out if its group gets shorter. -/
def accepts (t : Table) : Step → Bool
  | .insert _ e => (t.find? e.name).isNone
  | .erase c name => ((t.erase c name).group c).length ≠ (t.group c).length

def Step.make (w : Workshop) (c : Category) (name : Text) : Action → Step
  | .add => .insert c (.ofIcon c name w.artwork)
  | .remove => .erase c name

theorem change_make (w : Workshop) (c : Category) (name : Text) (action : Action) (t : Table) :
    t.change (.make w c name action) = Revision.tableOf action w c name t := by
  cases action <;> rfl

variable {x y : Step}

theorem accepts_erase (t : Table) (c : Category) (name : Text) :
    t.accepts (.erase c name) = t.holds c name := by
  rw [accepts, group_erase, if_pos rfl, Bool.eq_iff_iff, holds_iff, decide_eq_true_iff, ne_eq,
    List.length_filter_eq_length_iff]
  simp

theorem accepts_make (w : Workshop) (c : Category) (name : Text) (action : Action) (t : Table)
    (ms : Members) : t.accepts (.make w c name action) =
      (Revision.make action w c name t ms).table?.isSome := by
  cases action with
  | add =>
    rw [Step.make, accepts, Revision.ofIcon_name]
    cases hfind : t.find? name with
    | none => simp [Revision.make, Revision.add, hfind]
    | some owner =>
      by_cases howner : owner = c
      · simp [Revision.make, Revision.add, hfind, howner]
      · simp [Revision.make, Revision.add, hfind, howner, Revision.none]
  | remove =>
    rw [Step.make, accepts_erase]
    cases hholds : t.holds c name with
    | true => simp [Revision.make, Revision.remove, hholds]
    | false => cases hfind : t.find? name <;> simp [Revision.make, Revision.remove, hholds, hfind]

theorem group_change (t : Table) (x : Step) (c : Category) : (t.change x).group c =
    if c = x.category then x.edit.apply Entry.atMost Entry.name (t.accepts x) (t.group c)
    else t.group c := by
  cases x with
  | insert d e =>
    cases hfind : t.find? e.name with
    | none =>
      rw [change, group_insert hfind]
      simp only [Step.category, Step.edit, ListEdit.apply, accepts, hfind, Option.isNone_none,
        if_true]
      by_cases hc : c = d
      · rw [if_pos hc, if_pos hc, hc]
      · rw [if_neg hc, if_neg hc]
    | some owner =>
      rw [change, insert_of_used (by simp [hfind])]
      simp [Step.edit, ListEdit.apply, accepts, hfind]
  | erase d name =>
    rw [change, group_erase]
    by_cases hc : c = d
    · simp [Step.category, Step.edit, ListEdit.apply, hc]
    · simp [Step.category, hc]

theorem holds_change {name : Text} (h : name ≠ x.name) (t : Table) (c : Category) :
    (t.change x).holds c name = t.holds c name := by
  have hmem (e : Entry) (he : e.name = name) : e ∈ (t.change x).group c ↔ e ∈ t.group c := by
    rw [group_change]
    split
    · exact ListEdit.mem_apply_iff (by rw [Step.about_edit, he]; exact h) _ _
    · rfl
  rw [Bool.eq_iff_iff, holds_iff, holds_iff]
  exact exists_congr fun e => and_congr_left (hmem e)

theorem accepts_change (h : x.name ≠ y.name) (t : Table) :
    (t.change y).accepts x = t.accepts x := by
  cases x with
  | insert c e =>
    have hfind : (t.change y).find? e.name = t.find? e.name := by
      simp only [find?, holds_change (show e.name ≠ y.name from h)]
    rw [accepts, hfind, accepts]
  | erase c name =>
    rw [accepts_erase, accepts_erase]
    exact holds_change h t c

theorem change_comm (h : x.name ≠ y.name) (t : Table) :
    (t.change x).change y = (t.change y).change x := by
  refine ext_group fun c => ?_
  rw [group_change, group_change, group_change, group_change, accepts_change h,
    accepts_change (Ne.symm h)]
  by_cases hx : c = x.category
  · by_cases hy : c = y.category
    · have habout : x.edit.about Entry.name ≠ y.edit.about Entry.name := by simpa using h
      simp only [if_pos hx, if_pos hy]
      exact ListEdit.apply_comm (fun (e f : Entry) => atMost_total e.name f.name)
        (fun hef hfg => atMost_trans hef hfg) (fun hef hfe => atMost_antisymm hef hfe) habout _ _ _
    · simp only [if_pos hx, if_neg hy]
  · simp only [if_neg hx]

theorem mem_foldl_change {steps : List Step} {t : Table} {c : Category} {e : Entry}
    (h : e ∈ (steps.foldl change t).group c) : e ∈ t.group c ∨ Step.insert c e ∈ steps := by
  induction steps generalizing t with
  | nil => exact .inl h
  | cons x steps ih =>
    cases ih h with
    | inr hlater => exact .inr (.tail x hlater)
    | inl hchanged =>
      rw [group_change] at hchanged
      split at hchanged
      · next hc =>
        cases x with
        | erase d name => exact .inl (List.mem_filter.1 hchanged).1
        | insert d f =>
          rw [Step.edit, ListEdit.apply] at hchanged
          split at hchanged
          · rw [(perm_sortBy _ _).mem_iff, List.mem_append, List.mem_singleton] at hchanged
            refine hchanged.imp id fun hef => ?_
            rw [show c = d from hc, hef]
            exact List.mem_cons_self
          · exact .inl hchanged
      · exact .inl hchanged

end Table

namespace Members
variable {x y : Action × Text}

def edit : Action × Text → ListEdit Text Text
  | (.add, name) => .add name
  | (.remove, name) => .drop name

@[simp] theorem about_edit (x : Action × Text) : (edit x).about id = x.2 := by
  obtain ⟨action, name⟩ := x
  cases action <;> rfl

def accepts (ms : Members) : Action × Text → Bool
  | (.add, name) => !ms.contains name
  | (.remove, name) => (ms.erase name).length ≠ ms.length

theorem accepts_remove (ms : Members) (name : Text) :
    ms.accepts (.remove, name) = ms.contains name := by
  rw [accepts, Bool.eq_iff_iff, decide_eq_true_iff, ne_eq, erase,
    List.length_filter_eq_length_iff]
  simp

theorem change_eq (ms : Members) (x : Action × Text) :
    ms.change x = (edit x).apply atMost id (ms.accepts x) ms := by
  obtain ⟨action, name⟩ := x
  cases action with
  | add =>
    rw [change, insert, edit, ListEdit.apply, accepts]
    cases ms.contains name <;> rfl
  | remove => rfl

theorem accepts_change (h : x.2 ≠ y.2) (ms : Members) : (ms.change y).accepts x = ms.accepts x := by
  have hcontains : (ms.change y).contains x.2 = ms.contains x.2 := by
    rw [Bool.eq_iff_iff, List.contains_iff_mem, List.contains_iff_mem, change_eq]
    exact ListEdit.mem_apply_iff (by rw [about_edit]; exact h) _ _
  obtain ⟨action, name⟩ := x
  cases action with
  | add => rw [accepts, hcontains, accepts]
  | remove => rw [accepts_remove, accepts_remove, hcontains]

theorem change_comm (h : x.2 ≠ y.2) (ms : Members) :
    (ms.change x).change y = (ms.change y).change x := by
  have habout : (edit x).about id ≠ (edit y).about id := by simpa using h
  rw [change_eq (ms.change x) y, change_eq (ms.change y) x, accepts_change (Ne.symm h),
    accepts_change h, change_eq, change_eq]
  exact ListEdit.apply_comm atMost_total (fun hab hbc => atMost_trans hab hbc)
    (fun hab hba => atMost_antisymm hab hba) habout _ _ _

end Members

/-- Two steps with different names do the same in either order, to every table and to the members of
every file: they end with the same groups or members, and each does something in the one order if it
does in the other. So steps with names that all differ may be put in any order. -/
theorem steps_commute :
    (∀ (t : Table) (x y : Table.Step), x.name ≠ y.name →
      (t.change x).change y = (t.change y).change x ∧
      (t.change y).accepts x = t.accepts x ∧ (t.change x).accepts y = t.accepts y) ∧
    (∀ (f : EnumFile) (x y : Action × Text), x.2 ≠ y.2 →
      (f.members.change x).change y = (f.members.change y).change x ∧
      (f.members.change y).accepts x = f.members.accepts x ∧
      (f.members.change x).accepts y = f.members.accepts y) ∧
    (∀ (t : Table) (xs ys : List Table.Step), xs.Perm ys → (xs.map (·.name)).Nodup →
      xs.foldl Table.change t = ys.foldl Table.change t) ∧
    ∀ (f : EnumFile) (xs ys : List (Action × Text)), xs.Perm ys → (xs.map (·.2)).Nodup →
      xs.foldl Members.change f.members = ys.foldl Members.change f.members := by
  refine ⟨fun t x y h => ?_, fun f x y h => ?_, fun t xs ys hperm hnames => ?_,
    fun f xs ys hperm hnames => ?_⟩
  · exact ⟨Table.change_comm h t, Table.accepts_change h t, Table.accepts_change (Ne.symm h) t⟩
  · exact ⟨Members.change_comm h _, Members.accepts_change h _,
      Members.accepts_change (Ne.symm h) _⟩
  · exact foldl_perm_of_comm (fun t x y h => Table.change_comm h t) hperm hnames t
  · exact foldl_perm_of_comm (fun ms x y h => Members.change_comm h ms) hperm hnames f.members

/-- Groups and members that are not sorted, with names that are there twice. The insertion comes
first, and then the removal. -/
theorem steps_commute_unsorted :
    let e := fun name : String => Entry.mk name.toList name.toList name.toList
    let t : Table := ⟨[e "c", e "d", e "c"], [e "c"], [e "a"]⟩
    let f : EnumFile :=
      ⟨.token, [], ["c".toList, "d".toList, "c".toList], ['\x7d'], .standard⟩
    let x : Table.Step := .insert .token (e "b")
    let y : Table.Step := .erase .token "c".toList
    let z : Table.Step := .insert .wallet (e "a")
    let steps : List (Action × Text) := [(.add, "b".toList), (.remove, "c".toList)]
    x.name ≠ y.name ∧ (t.change x).change y = (t.change y).change x ∧
      (t.change x).change y = ⟨[e "b", e "d"], [e "c"], [e "a"]⟩ ∧
      (t.change x).accepts y = t.accepts y ∧ t.accepts y = true ∧ t.accepts z = false ∧
      [z, y, x].foldl Table.change t = [x, y, z].foldl Table.change t ∧
      steps.foldl Members.change f.members = steps.reverse.foldl Members.change f.members := by
  intro e t f x y z steps
  obtain ⟨htable, -, hbatch, hmembers⟩ := steps_commute
  have hne : x.name ≠ y.name := by decide
  obtain ⟨hcomm, -, haccepts⟩ := htable t x y hne
  exact ⟨hne, hcomm, by decide, haccepts, by decide, by decide,
    hbatch t [z, y, x] [x, y, z] (List.reverse_perm [x, y, z]) (by decide),
    hmembers f steps steps.reverse (List.reverse_perm steps).symm (by decide)⟩

end IconCatalog
