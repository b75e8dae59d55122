import IconCatalog.Proofs.Edit.Perform
import IconCatalog.Proofs.Edit.Revision
import IconCatalog.Proofs.Enumeration.Reread
import IconCatalog.Proofs.Seed.Source
import IconCatalog.Proofs.Table.Reread
/-!
What an edit leaves for the next one to read. A file that is written is read again, with all it held
before, exactly if no name in it has a double quote and no heading came to light that a comment hid.
-/
namespace IconCatalog
open Text Source

namespace Edit
variable {w : Workshop} {category : Category} {name : Text}

/-- The entries that a group is to hold after an edit: those it held, with the new one or without
those of the name. -/
def groupAfter (action : Action) (w : Workshop) (category : Category) (name : Text) (t : Table)
    (k : Category) : List Entry :=
  if k = category then
    match action with
    | .add =>
      if t.find? name = none then .ofIcon category name w.artwork :: t.group k else t.group k
    | .remove => (t.group k).filter (·.name ≠ name)
  else t.group k

theorem perm_groupAfter (action : Action) (w : Workshop) (category : Category) (name : Text)
    (t : Table) (k : Category) :
    ((Revision.tableOf action w category name t).group k).Perm
      (groupAfter action w category name t k) := by
  unfold groupAfter
  by_cases hk : k = category
  · subst hk
    rw [if_pos rfl]
    cases action with
    | add =>
      by_cases hf : t.find? name = none
      · have happend := List.perm_append_singleton (Entry.ofIcon k name w.artwork) (t.group k)
        rw [Revision.tableOf, Table.group_insert (by rw [Revision.ofIcon_name, hf]), if_pos rfl]
        simp only [hf, if_true]
        exact (perm_sortBy _ _).trans happend
      · rw [Revision.tableOf, Table.insert_of_used (by rw [Revision.ofIcon_name]; exact hf)]
        simp only [hf, if_false]
        exact .refl _
    | remove =>
      rw [Revision.tableOf, Table.group_erase, if_pos rfl]
  · rw [if_neg hk, Revision.group_tableOf_of_ne action t hk]

/-- The table file is read again, with the entries that the edit is to leave in every group. -/
def KeepsTable (action : Action) (w : Workshop) (category : Category) (name : Text) (f : TableFile)
    (s : Text) : Prop :=
  ∃ f', TableFile.read s = .ok f' ∧ f'.tail = f.tail ∧
    ∀ k, (f'.table.group k).Perm (groupAfter action w category name f.table k)

def KeepsMembers (action : Action) (category : Category) (name : Text) (t : Table) (g : EnumFile)
    (e : Text) : Prop :=
  ∃ g', EnumFile.read category e = .ok g' ∧
    g'.members = Revision.membersOf action category name t g.members

variable {action : Action} {f : TableFile} {g : EnumFile} {s e : Text}

theorem isSettled_tableOf (hf : TableFile.read s = .ok f) (hname : IsName name) (k : Category) :
    ∀ x ∈ (Revision.tableOf action w category name f.table).group k,
      x.IsSettled ∧ k.IsCalledIn x.light := by
  intro x hx
  have hold := TableFile.isSettled_of_read hf k
  rw [(perm_groupAfter action w category name f.table k).mem_iff] at hx
  unfold groupAfter at hx
  by_cases hk : k = category
  · subst hk
    rw [if_pos rfl] at hx
    cases action with
    | add =>
      by_cases hfind : f.table.find? name = none
      · simp only [hfind, if_true, List.mem_cons] at hx
        cases hx with
        | inl hx =>
          rw [hx]
          exact ⟨(Entry.isPrintable_ofIcon hname k w.artwork).toIsSettled,
            Entry.isCalledIn_ofIcon hname k w.artwork⟩
        | inr hx => exact hold x hx
      · simp only [hfind, if_false] at hx
        exact hold x hx
    | remove => exact hold x (List.mem_filter.1 hx).1
  · rw [if_neg hk] at hx
    exact hold x hx

theorem keepsTable_iff (hf : TableFile.read s = .ok f) (hname : IsName name) (ms : Members) :
    let r := Revision.make action w category name f.table ms
    KeepsTable action w category name f (tableText r f s) ↔ r.report.table = .unchanged ∨
      (∀ k, ∀ x ∈ groupAfter action w category name f.table k, doubleQuote ∉ x.name) ∧
        (occurrences Table.header (tableText r f s)).length = 1 := by
  intro r
  have htable : r.table?.getD f.table = Revision.tableOf action w category name f.table :=
    Revision.table?_getD action f.table ms
  have hperm := perm_groupAfter action w category name f.table
  unfold KeepsTable tableText Revision.report
  cases hr : r.table? with
  | none =>
    rw [hr, Option.getD_none] at htable
    simp only [Option.isSome_none, Bool.false_eq_true, if_false, true_or, iff_true]
    rw [← htable] at hperm
    exact ⟨f, hf, rfl, hperm⟩
  | some t =>
    obtain rfl : t = Revision.tableOf action w category name f.table := by rw [← htable, hr]; rfl
    have hreread := TableFile.reread_iff hf
      (t := Revision.tableOf action w category name f.table) (isSettled_tableOf hf hname)
    simp only [Option.isSome_some, if_true, reduceCtorEq, false_or]
    have hgroups (h : TableFile) (k : Category) :
        (h.table.group k).Perm ((Revision.tableOf action w category name f.table).group k) ↔
          (h.table.group k).Perm (groupAfter action w category name f.table k) :=
      ⟨fun hp => hp.trans (hperm k), fun hp => hp.trans (hperm k).symm⟩
    simpa only [hgroups, (hperm _).mem_iff] using hreread

theorem keepsMembers_iff (hg : EnumFile.read category e = .ok g) (hname : IsName name) (t : Table) :
    let r := Revision.make action w category name t g.members
    KeepsMembers action category name t g (membersText r g e) ↔ r.report.enumeration = .unchanged ∨
      (∀ m ∈ Revision.membersOf action category name t g.members, doubleQuote ∉ m) ∧
        (occurrences (Enumeration.header category) (membersText r g e)).length = 1 := by
  intro r
  have hmembers : r.members?.getD g.members = Revision.membersOf action category name t g.members :=
    Revision.members?_getD action t g.members
  have hlines : ∀ m ∈ Revision.membersOf action category name t g.members, '\n' ∉ m := by
    intro m hm
    cases Revision.mem_membersOf hm with
    | inl hm => exact EnumFile.no_feed_of_read hg m hm
    | inr hm => exact hm ▸ hname.not_mem (by decide)
  unfold KeepsMembers membersText Revision.report
  cases hr : r.members? with
  | none =>
    rw [hr, Option.getD_none] at hmembers
    simp only [Option.isSome_none, Bool.false_eq_true, if_false, true_or, iff_true]
    exact ⟨g, hg, hmembers⟩
  | some ms =>
    obtain rfl : ms = Revision.membersOf action category name t g.members := by
      rw [← hmembers, hr]
      rfl
    simp only [Option.isSome_some, if_true, reduceCtorEq, false_or]
    exact EnumFile.reread_iff hg hlines

/-- An edit with a valid name succeeds on files that are read. Each file is read again with what it
is to hold if and only if the edit did not write it, or no name in it has a double quote and one
header is found in it. -/
theorem perform_keeps_iff {d : Disk} (hname : isValidName name = true)
    (hs : d.readText (Site.tablePath w.target) = .ok s)
    (he : d.readText (Site.enumPath w.target category) = .ok e)
    (hf : TableFile.read s = .ok f) (hg : EnumFile.read category e = .ok g) :
    ∃ report d' s' e', (perform action w category name).outcome d = (.ok report, d') ∧
      d'.readText (Site.tablePath w.target) = .ok s' ∧
      d'.readText (Site.enumPath w.target category) = .ok e' ∧
      (KeepsTable action w category name f s' ↔ report.table = .unchanged ∨
        (∀ k, ∀ x ∈ groupAfter action w category name f.table k, doubleQuote ∉ x.name) ∧
          (occurrences Table.header s').length = 1) ∧
      (KeepsMembers action category name f.table g e' ↔ report.enumeration = .unchanged ∨
        (∀ m ∈ Revision.membersOf action category name f.table g.members, doubleQuote ∉ m) ∧
          (occurrences (Enumeration.header category) e').length = 1) := by
  obtain ⟨d', hrun, hupdates, -⟩ := exists_outcome action hname hs he hf hg
  have hicon := isValidName_iff.1 hname
  exact ⟨_, d', _, _, hrun, hupdates.table, hupdates.members, keepsTable_iff hf hicon g.members,
    keepsMembers_iff hg hicon f.table⟩

/-- A key in single quotes, a bare one, an expression over two lines, comments, and members in
both kinds of quotes: everything is read again when a name is added and when one is removed. -/
theorem perform_keeps_iff_by_hand :
    let s := ("export const iconMap = \x7b\n  'BTC': \x7b lightMode: baseImgUrlToken(\n[1, 2])," ++
      " darkMode: 2 \x7d, // Old\n  ok : \x7b lightMode: baseImgUrlWallet(), darkMode: 2, \x7d" ++
      "\n\x7d\n").toList
    let e := ("export enum TokenSymbol \x7b 'BTC' = 'btc', // Old\n" ++
      "  ETH = \x22ETH\x22 \x7d\n").toList
    let d := diskWith s fun _ => e
    let w : Workshop := ⟨⟨"icons".toList⟩, .builtin⟩
    ∃ f g, TableFile.read s = .ok f ∧ EnumFile.read .token e = .ok g ∧
      ∀ step ∈ [(Action.add, "1INCH".toList), (.remove, "BTC".toList)],
        isValidName step.2 = true ∧
        ∃ d' s' e', (perform step.1 w .token step.2).outcome d = (.ok ⟨.applied, .applied⟩, d') ∧
          d'.readText (Site.tablePath w.target) = .ok s' ∧
          d'.readText (Site.enumPath w.target .token) = .ok e' ∧
          KeepsTable step.1 w .token step.2 f s' ∧
          KeepsMembers step.1 .token step.2 f.table g e' := by
  intro s e d w
  let t : Table :=
    ⟨[⟨"BTC".toList, "baseImgUrlToken(\n[1, 2])".toList, "2".toList⟩],
      [⟨"ok".toList, "baseImgUrlWallet()".toList, "2".toList⟩], []⟩
  let f : TableFile := ⟨s.take 24, t, "\x7d\n".toList, .standard⟩
  let g : EnumFile := ⟨.token, e.take 25, ["BTC".toList, "ETH".toList], "\x7d\n".toList, .standard⟩
  have hf : TableFile.read s = .ok f := eq_ok_of_toOption (by decide +kernel)
  have hg : EnumFile.read .token e = .ok g := eq_ok_of_toOption (by decide +kernel)
  have hkept {action : Action} {name : Text} (hname : isValidName name = true)
      (hreport : (Revision.make action w .token name t g.members).report = ⟨.applied, .applied⟩)
      (hnames : ∀ k, ∀ x ∈ groupAfter action w .token name t k, doubleQuote ∉ x.name)
      (hmembers : ∀ m ∈ Revision.membersOf action .token name t g.members, doubleQuote ∉ m)
      (htable : (occurrences Table.header
        (tableText (Revision.make action w .token name t g.members) f s)).length = 1)
      (henum : (occurrences (Enumeration.header .token)
        (membersText (Revision.make action w .token name t g.members) g e)).length = 1) :
      ∃ d' s' e', (perform action w .token name).outcome d = (.ok ⟨.applied, .applied⟩, d') ∧
        d'.readText (Site.tablePath w.target) = .ok s' ∧
        d'.readText (Site.enumPath w.target .token) = .ok e' ∧
        KeepsTable action w .token name f s' ∧ KeepsMembers action .token name f.table g e' := by
    have hs := readText_diskWith_table s fun _ => e
    have he := readText_diskWith_enum s (fun _ => e) .token
    obtain ⟨report, d', s', e', hrun, hs', he', hkeepsTable, hkeepsMembers⟩ :=
      @perform_keeps_iff w .token name action f g s e d hname hs he hf hg
    obtain ⟨d'', hrun', hupdates, -⟩ := exists_outcome (w := w) action hname hs he hf hg
    obtain ⟨hr, rfl⟩ := Prod.mk.inj (hrun.symm.trans hrun')
    obtain rfl := Except.ok.inj hr
    obtain rfl := Except.ok.inj (hs'.symm.trans hupdates.table)
    obtain rfl := Except.ok.inj (he'.symm.trans hupdates.members)
    rw [hreport] at hrun
    exact ⟨_, _, _, hrun, hs', he', hkeepsTable.2 (.inr ⟨hnames, htable⟩),
      hkeepsMembers.2 (.inr ⟨hmembers, henum⟩)⟩
  refine ⟨f, g, hf, hg, List.forall_mem_cons.2 ⟨⟨by decide, ?_⟩,
    List.forall_mem_singleton.2 ⟨by decide, ?_⟩⟩⟩
  · refine hkept (by decide) (by decide +kernel) (fun k => ?_) (by decide +kernel)
      (by decide +kernel) (by decide +kernel)
    cases k <;> decide +kernel
  · refine hkept (by decide) (by decide +kernel) (fun k => ?_) (by decide +kernel)
      (by decide +kernel) (by decide +kernel)
    cases k <;> decide +kernel

/-- A key in single quotes with a double quote in it is printed in double quotes, and the file that
was read before the edit is refused after it. -/
theorem add_breaks_quoted_key :
    let s := "export const iconMap = \x7b\n  'a\x22b': \x7b ".toList ++
      "lightMode: baseImgUrlToken(1), darkMode: 2 \x7d\n\x7d;\n".toList
    let d := diskWith s Seed.enumSource
    let w : Workshop := ⟨⟨"icons".toList⟩, .builtin⟩
    (∃ f, TableFile.read s = .ok f) ∧ (∃ g, EnumFile.read .token (Seed.enumSource .token) = .ok g) ∧
    ∃ d' s', (perform .add w .token "BTC".toList).outcome d = (.ok ⟨.applied, .applied⟩, d') ∧
      d'.readText (Site.tablePath w.target) = .ok s' ∧ ∀ f', TableFile.read s' ≠ .ok f' := by
  intro s d w
  let t : Table := ⟨[⟨"a\x22b".toList, "baseImgUrlToken(1)".toList, "2".toList⟩], [], []⟩
  let f : TableFile := ⟨s.take 24, t, "\x7d;\n".toList, .standard⟩
  have hs := readText_diskWith_table s Seed.enumSource
  have he := readText_diskWith_enum s Seed.enumSource .token
  have hf : TableFile.read s = .ok f := eq_ok_of_toOption (by decide +kernel)
  have hg := Seed.read_enum .token (show ∀ m ∈ ([] : Members), IsName m by simp)
  rw [← Seed.enumSource_eq] at hg
  obtain ⟨d', hrun, hupdates, -⟩ := exists_outcome (w := w) .add
    (show isValidName "BTC".toList = true by decide) hs he hf hg
  refine ⟨⟨f, hf⟩, ⟨_, hg⟩, d', _, hrun, hupdates.table, fun f' hf' => ?_⟩
  have hnone :
      (TableFile.read (tableText (Revision.make .add w .token "BTC".toList t []) f s)).isOk =
        false := by
    decide +kernel
  rw [hf'] at hnone
  exact nomatch hnone

end Edit
end IconCatalog
