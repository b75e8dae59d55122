import IconCatalog.Proofs.Edit.State
/-!
Whole runs of edits on new files. A catalog gives each name in use its category and the expressions
that it was added with; after every edit of a run, the four files show exactly the catalog that the
edits make of an empty one.
-/
namespace IconCatalog
open Text Source

abbrev Catalog := Text → Option (Category × Text × Text)

structure Call where
  action : Action
  category : Category
  name : Text
  artwork : Artwork

def Call.run (call : Call) (target : Path) : Run Report :=
  Edit.perform call.action ⟨target, call.artwork⟩ call.category call.name

namespace Catalog

def empty : Catalog := fun _ => none

def set (m : Catalog) (name : Text) (value : Option (Category × Text × Text)) : Catalog :=
  fun n => if n = name then value else m n

def add (m : Catalog) (c : Category) (e : Entry) : Catalog :=
  if m e.name = none then m.set e.name (some (c, e.light, e.dark)) else m

def remove (m : Catalog) (c : Category) (name : Text) : Catalog :=
  if (m name).any (·.1 = c) then m.set name none else m

def update (m : Catalog) (call : Call) : Catalog :=
  if Edit.isValidName call.name then
    match call.action with
    | .add => m.add call.category (.ofIcon call.category call.name call.artwork)
    | .remove => m.remove call.category call.name
  else m

end Catalog

namespace Table

/-- The groups hold what the catalog says, each in strictly ascending order of the names. -/
structure Lists (t : Table) (m : Catalog) : Prop where
  entries : ∀ c e, e ∈ t.group c ↔ m e.name = some (c, e.light, e.dark)
  ascending : ∀ c, (t.group c).Pairwise fun e f => e.atMost f = true ∧ e.name ≠ f.name

namespace Lists
variable {t : Table} {m : Catalog} {c : Category} {name : Text}

theorem holds_iff (h : t.Lists m) : t.holds c name = true ↔ (m name).any (·.1 = c) = true := by
  rw [Table.holds_iff]
  constructor
  · intro ⟨e, he, hname⟩
    have hm := (h.entries c e).1 he
    rw [hname] at hm
    simp [hm]
  · intro hany
    cases hm : m name with
    | none => simp [hm] at hany
    | some found =>
      obtain ⟨k, light, dark⟩ := found
      obtain rfl : k = c := by simpa [hm] using hany
      exact ⟨⟨name, light, dark⟩, (h.entries k _).2 hm, rfl⟩

theorem find?_eq_none_iff (h : t.Lists m) : t.find? name = none ↔ m name = none := by
  rw [Table.find?_eq_none_iff]
  constructor
  · intro hnone
    cases hm : m name with
    | none => rfl
    | some found =>
      have hholds := h.holds_iff.2 (show (m name).any (·.1 = found.1) = true by simp [hm])
      rw [hnone] at hholds
      exact absurd hholds (by simp)
  · intro hm k
    have hnot : ¬t.holds k name = true := by simp [h.holds_iff, hm]
    simpa using hnot

theorem empty : Table.empty.Lists .empty where
  entries := fun c e => by cases c <;> simp [Table.empty, group, Catalog.empty]
  ascending := fun c => by cases c <;> exact .nil

theorem name_ne_of_none (h : t.Lists m) (hm : m name = none) (c : Category) :
    ∀ e ∈ t.group c, e.name ≠ name := by
  intro e he hname
  have hused := (h.entries c e).1 he
  rw [hname, hm] at hused
  exact absurd hused (by simp)

theorem ascending_sortBy (h : t.Lists m) {e : Entry} (hm : m e.name = none) (c : Category) :
    (sortBy Entry.atMost (t.group c ++ [e])).Pairwise
      fun e f => e.atMost f = true ∧ e.name ≠ f.name := by
  have hle : (sortBy Entry.atMost (t.group c ++ [e])).Pairwise
      fun e f : Entry => e.atMost f = true :=
    pairwise_sortBy (fun e f : Entry => atMost_total e.name f.name)
      (fun h h' => atMost_trans h h') _
  have hne : (t.group c ++ [e]).Pairwise fun e f : Entry => e.name ≠ f.name := by
    have hnames := (h.ascending c).imp fun h => h.2
    refine List.pairwise_append.2 ⟨hnames, List.pairwise_singleton _ _, fun f hf g hg => ?_⟩
    rw [List.mem_singleton.1 hg]
    exact h.name_ne_of_none hm c f hf
  have hsort := perm_sortBy Entry.atMost (t.group c ++ [e])
  exact List.pairwise_and_iff.2 ⟨hle, hsort.symm.pairwise hne Ne.symm⟩

theorem mem_insert_iff (h : t.Lists m) {e : Entry} (hm : m e.name = none) {c k : Category}
    {f : Entry} : f ∈ (t.insert c e).group k ↔ f ∈ t.group k ∨ k = c ∧ f = e := by
  rw [group_insert (h.find?_eq_none_iff.2 hm)]
  by_cases hk : k = c
  · rw [if_pos hk, (perm_sortBy Entry.atMost (t.group c ++ [e])).mem_iff]
    simp [hk]
  · simp [hk]

theorem insert (h : t.Lists m) (c : Category) (e : Entry) : (t.insert c e).Lists (m.add c e) := by
  by_cases hm : m e.name = none
  · rw [Catalog.add, if_pos hm]
    constructor
    · intro k f
      rw [h.mem_insert_iff hm, Catalog.set]
      by_cases hname : f.name = e.name
      · have hnot : f ∉ t.group k := fun hf => h.name_ne_of_none hm k f hf hname
        obtain ⟨fname, light, dark⟩ := f
        obtain ⟨ename, elight, edark⟩ := e
        obtain rfl : fname = ename := hname
        simp [hnot, eq_comm]
      · have hne : f ≠ e := fun hf => hname (by rw [hf])
        rw [if_neg hname, ← h.entries]
        simp [hne]
    · intro k
      rw [group_insert (h.find?_eq_none_iff.2 hm)]
      split
      · exact h.ascending_sortBy hm c
      · exact h.ascending k
  · have hused : t.find? e.name ≠ none := fun hnone => hm (h.find?_eq_none_iff.1 hnone)
    rw [Catalog.add, if_neg hm, insert_of_used hused]
    exact h

theorem erase (h : t.Lists m) (c : Category) (name : Text) :
    (t.erase c name).Lists (m.remove c name) := by
  by_cases hany : (m name).any (·.1 = c) = true
  · rw [Catalog.remove, if_pos hany]
    constructor
    · intro k f
      rw [group_erase, Catalog.set]
      by_cases hname : f.name = name
      · have hnot : k ≠ c → f ∉ t.group k := by
          intro hk hf
          rw [← hname, (h.entries k f).1 hf] at hany
          exact hk (by simpa using hany)
        by_cases hk : k = c
        · simp [hk, hname]
        · simp [hk, hname, hnot hk]
      · rw [if_neg hname, ← h.entries]
        by_cases hk : k = c
        · simp [hk, hname]
        · simp [hk]
    · intro k
      rw [group_erase]
      split
      · exact (h.ascending c).filter _
      · exact h.ascending k
  · have hnot : t.holds c name = false :=
      Bool.eq_false_iff.2 fun hholds => hany (h.holds_iff.1 hholds)
    rw [Catalog.remove, if_neg hany, erase_of_not_holds hnot]
    exact h

theorem update (h : t.Lists m) {call : Call} (hname : Edit.isValidName call.name = true)
    (target : Path) : (Revision.tableOf call.action ⟨target, call.artwork⟩ call.category call.name
      t).Lists (m.update call) := by
  rw [Catalog.update, if_pos hname]
  cases call.action with
  | add => exact h.insert _ _
  | remove => exact h.erase _ _

end Lists

end Table

namespace Seed

/-- The texts of the four files when they show a table. -/
structure Shows (target : Path) (base : Text) (t : Table) (d : Disk) : Prop where
  table : d.readText (Site.tablePath target) =
    .ok (tableHead base ++ t.renderBody .standard ++ tableTail)
  members : ∀ c, d.readText (Site.enumPath target c) =
    .ok (enumHead c ++ Enumeration.renderBody c ((t.group c).map (·.name)) .standard ++ enumTail)

variable {target : Path} {base : Text} {t : Table} {m : Catalog} {d : Disk}

theorem Shows.holds (h : Shows target base t d) (ht : t.HoldsIcons) :
    Holds target (tableHead base) t (fun c => (t.group c).map (·.name)) d :=
  ⟨h.table, h.members, ht, ht.isName⟩

theorem Shows.step (hbase : IsBase base) (h : Shows target base t d) (ht : t.HoldsIcons)
    {call : Call} (hname : Edit.isValidName call.name = true) :
    ∃ report d', (call.run target).outcome d = (.ok report, d') ∧
      Shows target base
        (Revision.tableOf call.action ⟨target, call.artwork⟩ call.category call.name t) d' := by
  obtain ⟨report, d', hrun, h'⟩ := (h.holds ht).step (fun _ => read_table hbase) call.action
    call.artwork call.category hname
  rw [Revision.membersAfter_map_name call.action ⟨target, call.artwork⟩] at h'
  exact ⟨report, d', hrun, h'.table, h'.members⟩

def diskAfter (target : Path) (d : Disk) (calls : List Call) : Disk :=
  calls.foldl (fun d call => ((call.run target).outcome d).2) d

end Seed
end IconCatalog
