import IconCatalog.Proofs.Edit.Perform
import IconCatalog.Proofs.Edit.Revision
import IconCatalog.Proofs.Seed.Source
/-!
The four files between edits, with enumerations that need not agree with the table. Every edit takes
them from one such state to the next, whether it is finished or ends with its first write; one that
ended there and is made again leaves the disk that it would have left at once.
-/
namespace IconCatalog
open Text Source

namespace Table

theorem HoldsIcons.update {t : Table} (h : t.HoldsIcons) (action : Action) (w : Workshop)
    {c : Category} {name : Text} (hname : IsName name) :
    (Revision.tableOf action w c name t).HoldsIcons := by
  intro k e he
  by_cases hk : k = c
  · subst hk
    cases action with
    | add =>
      by_cases hf : t.find? name = none
      · rw [Revision.tableOf, group_insert (by rw [Revision.ofIcon_name, hf]), if_pos rfl,
          (perm_sortBy _ _).mem_iff, List.mem_append, List.mem_singleton] at he
        exact he.elim (h k e) fun he => ⟨name, w.artwork, hname, he⟩
      · rw [Revision.tableOf, insert_of_used (by rw [Revision.ofIcon_name]; exact hf)] at he
        exact h k e he
    | remove =>
      rw [Revision.tableOf, group_erase, if_pos rfl, List.mem_filter] at he
      exact h k e he.1
  · rw [Revision.group_tableOf_of_ne action t hk] at he
    exact h k e he

theorem HoldsIcons.isName {t : Table} (h : t.HoldsIcons) (c : Category) :
    ∀ name ∈ (t.group c).map (·.name), IsName name := by
  intro name hmem
  obtain ⟨e, he, rfl⟩ := List.mem_map.1 hmem
  obtain ⟨name, artwork, hname, rfl⟩ := h c e he
  rwa [Revision.ofIcon_name]

theorem holdsIcons_empty : empty.HoldsIcons := fun c e he => by cases c <;> exact nomatch he

end Table

namespace Revision

def membersAfter (action : Action) (c : Category) (name : Text) (t : Table)
    (ms : Category → Members) : Category → Members :=
  fun k => if k = c then membersOf action c name t (ms c) else ms k

theorem membersAfter_map_name (action : Action) (w : Workshop) (c : Category) (name : Text)
    (t : Table) : membersAfter action c name t (fun k => (t.group k).map (·.name)) =
      fun k => ((tableOf action w c name t).group k).map (·.name) := by
  funext k
  by_cases hk : k = c
  · subst hk
    rw [membersAfter, if_pos rfl, membersOf_map_name]
  · rw [membersAfter, if_neg hk, group_tableOf_of_ne action t hk]

end Revision

namespace Seed

/-- The four files, with a table of icons and with members for each category. -/
structure Holds (target : Path) (head : Text) (t : Table) (ms : Category → Members) (d : Disk) :
    Prop where
  table : d.readText (Site.tablePath target) =
    .ok (head ++ t.renderBody .standard ++ tableTail)
  members : ∀ c, d.readText (Site.enumPath target c) =
    .ok (enumHead c ++ Enumeration.renderBody c (ms c) .standard ++ enumTail)
  icons : t.HoldsIcons
  names : ∀ c, ∀ m ∈ ms c, IsName m

namespace Holds
variable {target : Path} {head : Text} {t : Table} {ms : Category → Members} {d : Disk}
  {name : Text}

theorem isRead (hhead : IsTableHead head) (h : Holds target head t ms d) :
    (∃ s f, d.readText (Site.tablePath target) = .ok s ∧ TableFile.read s = .ok f) ∧
      ∀ c, ∃ e g, d.readText (Site.enumPath target c) = .ok e ∧ EnumFile.read c e = .ok g :=
  ⟨⟨_, _, h.table, hhead t h.icons⟩, fun c => ⟨_, _, h.members c, read_enum c (h.names c)⟩⟩

theorem firstHalf (hhead : IsTableHead head) (h : Holds target head t ms d) (action : Action)
    (artwork : Artwork) (c : Category) (hname : Edit.isValidName name = true) :
    ∃ p, Run.exec (Edit.firstHalf action ⟨target, artwork⟩ c name) (.start d) =
        (.ok (⟨c, enumHead c, ms c, enumTail, .standard⟩,
          Revision.make action ⟨target, artwork⟩ c name t (ms c)), p) ∧
      ((Revision.make action ⟨target, artwork⟩ c name t (ms c)).table? = none → p.disk = d) ∧
      Holds target head (Revision.tableOf action ⟨target, artwork⟩ c name t) ms p.disk := by
  obtain ⟨p, hrun, hsame, htable, -, hothers⟩ :=
    Edit.exists_firstHalf (w := ⟨target, artwork⟩) action hname h.table (h.members c)
      (hhead t h.icons) (read_enum c (h.names c))
  rw [Edit.tableText_of_canonical (by rfl), Revision.table?_getD] at htable
  refine ⟨p, hrun, hsame, htable, fun k => ?_,
    h.icons.update action _ (Edit.isValidName_iff.1 hname), h.names⟩
  rw [hothers _ (Edit.locate_enumPath_ne h.table k), h.members]

theorem step (hhead : IsTableHead head) (h : Holds target head t ms d) (action : Action)
    (artwork : Artwork) (c : Category) (hname : Edit.isValidName name = true) :
    ∃ report d', (Edit.perform action ⟨target, artwork⟩ c name).outcome d = (.ok report, d') ∧
      Holds target head (Revision.tableOf action ⟨target, artwork⟩ c name t)
        (Revision.membersAfter action c name t ms) d' := by
  have hicon := Edit.isValidName_iff.1 hname
  obtain ⟨d', hrun, hupdates, -⟩ :=
    Edit.exists_outcome (w := ⟨target, artwork⟩) action hname h.table (h.members c)
      (hhead t h.icons) (read_enum c (h.names c))
  have htable := hupdates.table
  have hmembers := hupdates.members
  rw [Edit.tableText_of_canonical (by rfl), Revision.table?_getD] at htable
  rw [Edit.membersText_of_canonical (by rfl), Revision.members?_getD] at hmembers
  refine ⟨_, d', hrun, htable, fun k => ?_, h.icons.update action _ hicon, fun k m hm => ?_⟩
  · by_cases hk : k = c
    · subst hk
      rw [Revision.membersAfter, if_pos rfl]
      exact hmembers
    · have hplaces := Edit.locate_enumPath_inj (h.members c) hk
      rw [hupdates.others _ (Edit.locate_enumPath_ne h.table k) hplaces, h.members,
        Revision.membersAfter, if_neg hk]
  · by_cases hk : k = c
    · rw [Revision.membersAfter, if_pos hk] at hm
      cases Revision.mem_membersOf hm with
      | inl hm => exact h.names c m hm
      | inr hm => exact hm ▸ hicon
    · rw [Revision.membersAfter, if_neg hk] at hm
      exact h.names k m hm

/-- Made again behind its first half, an edit leaves the disk that it leaves when made once. -/
theorem rerun (hhead : IsTableHead head) (h : Holds target head t ms d) (action : Action)
    (artwork : Artwork) (c : Category) (hname : Edit.isValidName name = true) :
    let w : Workshop := ⟨target, artwork⟩
    ∃ left report report' stopped finished,
      (Edit.firstHalf action w c name).outcome d = (.ok left, stopped) ∧
      (Edit.perform action w c name).outcome stopped = (.ok report, finished) ∧
      (Edit.perform action w c name).outcome d = (.ok report', finished) := by
  intro w
  obtain ⟨p, hfirst, -, hp⟩ := h.firstHalf hhead action artwork c hname
  obtain ⟨q, hsecond, hsame, -⟩ := hp.firstHalf hhead action artwork c hname
  obtain ⟨report, again, hagain, -⟩ := hp.step hhead action artwork c hname
  obtain ⟨report', once, honce, -⟩ := h.step hhead action artwork c hname
  have hdisk : q.disk = p.disk := hsame (Revision.table?_tableOf action t (ms c))
  have heq : again = once := by
    rw [Edit.perform_eq, Run.outcome, Run.exec_bind_ok hsecond] at hagain
    rw [Edit.perform_eq, Run.outcome, Run.exec_bind_ok hfirst] at honce
    rw [← (Prod.mk.inj hagain).2, ← (Prod.mk.inj honce).2]
    exact Edit.disk_secondHalf_congr action _ (Revision.members?_tableOf action t (ms c)) hdisk
  subst heq
  exact ⟨_, report, report', p.disk, again, by rw [Run.outcome, hfirst], hagain, honce⟩

end Holds

theorem holds_empty {target : Path} {base : Text} {d : Disk}
    (htable : d.readText (Site.tablePath target) = .ok (tableSource base))
    (henum : ∀ c, d.readText (Site.enumPath target c) = .ok (enumSource c)) :
    Holds target (tableHead base) .empty (fun _ => []) d where
  table := by rw [htable, tableSource_eq]
  members := fun c => by rw [henum, enumSource_eq]
  icons := Table.holdsIcons_empty
  names := fun c m hm => nomatch hm

end Seed
end IconCatalog
