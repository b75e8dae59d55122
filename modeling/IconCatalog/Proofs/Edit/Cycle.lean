import IconCatalog.Proofs.Edit.Perform
import IconCatalog.Proofs.Edit.Revision
import IconCatalog.Proofs.Enumeration.File
import IconCatalog.Proofs.Table.File
/-!
An icon that is added and removed again. Printed files whose names are in order and free of double
quotes come back as they were, and each edit leaves the disk alone when it is made twice.
-/
namespace IconCatalog
open Text Source

namespace Table
variable {t : Table} {c : Category} {e : Entry} {as bs : List Entry}

theorem exists_listing_insert (hunused : t.find? e.name = none) (hgroup : t.group c = as ++ bs)
    (hsort : sortBy Entry.atMost (t.group c ++ [e]) = as ++ e :: bs) : ∃ before behind,
    t.listing = before ++ behind ∧ (t.insert c e).listing = before ++ (c, e) :: behind := by
  obtain ⟨before, behind, hlisting⟩ := exists_listing t c
  have hinsert : t.insert c e = t.setGroup c (as ++ e :: bs) := by
    rw [insert, hunused, Option.isSome_none, if_neg Bool.false_ne_true, hsort]
  refine ⟨before ++ as.map (c, ·), bs.map (c, ·) ++ behind, ?_, ?_⟩
  · have h := hlisting (t.group c)
    rw [setGroup_group, hgroup] at h
    simpa using h
  · rw [hinsert, hlisting]
    simp

theorem erase_insert (hunused : t.find? e.name = none) (hgroup : t.group c = as ++ bs)
    (hsort : sortBy Entry.atMost (t.group c ++ [e]) = as ++ e :: bs) :
    (t.insert c e).erase c e.name = t := by
  refine ext_group fun k => ?_
  rw [group_erase, group_insert hunused, group_insert hunused, if_pos rfl, hsort]
  by_cases hk : k = c
  · subst hk
    have hfresh : ∀ x ∈ as ++ bs, x.name ≠ e.name := by
      intro x hx hname
      have hnot := find?_eq_none_iff.1 hunused k
      rw [holds_iff.2 ⟨x, by rw [hgroup]; exact hx, hname⟩] at hnot
      exact absurd hnot (by simp)
    have hall : (as ++ bs).filter (·.name ≠ e.name) = as ++ bs :=
      List.filter_eq_self.2 fun x hx => by simpa using hfresh x hx
    rw [List.filter_append] at hall
    rw [if_pos rfl, List.filter_append, List.filter_cons_of_neg (by simp), hall, hgroup]
  · rw [if_neg hk, if_neg hk]

theorem IsPrintable.insert (h : t.IsPrintable) (he : e.IsPrintable) (hcall : c.IsCalledIn e.light) :
    (t.insert c e).IsPrintable := by
  by_cases hunused : t.find? e.name = none
  · intro k x hx
    rw [group_insert hunused] at hx
    by_cases hk : k = c
    · subst hk
      rw [if_pos rfl, (perm_sortBy _ _).mem_iff, List.mem_append, List.mem_singleton] at hx
      cases hx with
      | inl hx => exact h k x hx
      | inr hx => exact hx ▸ ⟨he, hcall⟩
    · rw [if_neg hk] at hx
      exact h k x hx
  · rw [insert_of_used hunused]
    exact h

end Table

namespace Edit
variable {w : Workshop} {category : Category} {name : Text} {d : Disk}
  {f : TableFile} {g : EnumFile}

/-- The two files of an edit on a disk, both in their printed form. -/
structure Shows (w : Workshop) (category : Category) (d : Disk) (f : TableFile) (g : EnumFile) :
    Prop where
  table : d.readText (Site.tablePath w.target) = .ok f.render
  members : d.readText (Site.enumPath w.target category) = .ok g.render
  isTable : f.IsPrinted f.render
  isEnum : g.IsPrinted category g.render

theorem Shows.exists_outcome (h : Shows w category d f g) (action : Action)
    (hname : isValidName name = true) {t : Table} {ms : Members}
    (ht : Revision.tableOf action w category name f.table = t)
    (hms : Revision.membersOf action category name f.table g.members = ms) : ∃ d',
    (perform action w category name).outcome d =
      (.ok (Revision.make action w category name f.table g.members).report, d') ∧
    d'.readText (Site.tablePath w.target) = .ok { f with table := t }.render ∧
    d'.readText (Site.enumPath w.target category) = .ok { g with members := ms }.render := by
  obtain ⟨d', hrun, hupdates, -⟩ :=
    Edit.exists_outcome action hname h.table h.members h.isTable.read h.isEnum.read
  have htable := hupdates.table
  have hmembers := hupdates.members
  rw [tableText_of_canonical rfl, Revision.table?_getD, ht] at htable
  rw [membersText_of_canonical rfl, Revision.members?_getD, hms] at hmembers
  exact ⟨d', hrun, htable, hmembers⟩

theorem Shows.outcome_of_none (h : Shows w category d f g) (action : Action)
    (hname : isValidName name = true)
    (hnone : (Revision.make action w category name f.table g.members).table? = none ∧
      (Revision.make action w category name f.table g.members).members? = none) :
    (perform action w category name).outcome d = (.ok ⟨.unchanged, .unchanged⟩, d) := by
  obtain ⟨d', hrun, -, hsame⟩ :=
    Edit.exists_outcome action hname h.table h.members h.isTable.read h.isEnum.read
  rw [Revision.report_of_none hnone.1 hnone.2, hsame hnone.1 hnone.2] at hrun
  exact hrun

/-- On printed files in order, adding and removing an unused name applies to both files, brings both
texts back, and does nothing when it is repeated. -/
theorem add_remove_restores {s e : Text} (hname : isValidName name = true)
    (hs : d.readText (Site.tablePath w.target) = .ok s)
    (he : d.readText (Site.enumPath w.target category) = .ok e)
    (hf : f.IsPrinted s) (hg : g.IsPrinted category e)
    (hgroups : ∀ c, (f.table.group c).Pairwise fun x y => x.atMost y = true)
    (hmembers : g.members.Pairwise fun m n => atMost m n = true)
    (hkeys : ∀ c, ∀ x ∈ f.table.group c, doubleQuote ∉ x.name)
    (hquotes : ∀ m ∈ g.members, doubleQuote ∉ m)
    (hunused : ∀ c, ∀ x ∈ f.table.group c, x.name ≠ name) (hfresh : name ∉ g.members) :
    ∃ d₁ d₂, (perform .add w category name).outcome d = (.ok ⟨.applied, .applied⟩, d₁) ∧
      (perform .add w category name).outcome d₁ = (.ok ⟨.unchanged, .unchanged⟩, d₁) ∧
      (perform .remove w category name).outcome d₁ = (.ok ⟨.applied, .applied⟩, d₂) ∧
      d₂.readText (Site.tablePath w.target) = .ok s ∧
      d₂.readText (Site.enumPath w.target category) = .ok e ∧
      (perform .remove w category name).outcome d₂ = (.ok ⟨.unchanged, .unchanged⟩, d₂) := by
  obtain rfl := hf.render
  obtain rfl := hg.render
  have hicon := isValidName_iff.1 hname
  let x : Entry := .ofIcon category name w.artwork
  have hxname : x.name = name := Revision.ofIcon_name ..
  have hfind := Table.find?_eq_none_of_unused hunused
  have hfindx : f.table.find? x.name = none := by rw [hxname, hfind]
  obtain ⟨as, bs, hgroup, hsort⟩ := exists_sortBy_append (hgroups category) x
  obtain ⟨ms, ns, hmsplit, hmsort⟩ := exists_sortBy_append hmembers name
  obtain ⟨before, behind, hbefore, hbehind⟩ := Table.exists_listing_insert hfindx hgroup hsort
  -- the two files with the icon in them
  let f₁ : TableFile := { f with table := f.table.insert category x }
  let g₁ : EnumFile := { g with members := ms ++ name :: ns }
  have hprintable : f.table.IsPrintable := fun c y hy =>
    have hread := TableFile.isSettled_of_read hf.read c y hy
    ⟨⟨hread.1, hkeys c y hy⟩, hread.2⟩
  have hinserted : (f.table.insert category x).IsPrintable :=
    hprintable.insert (Entry.isPrintable_ofIcon hicon _ _) (Entry.isCalledIn_ofIcon hicon _ _)
  have hf₁ : f₁.IsPrinted f₁.render := hf.insert hinserted hicon hbefore hbehind
  have hg₁ : g₁.IsPrinted category g₁.render := by
    refine hg.insert (fun m hm => ?_) hicon hmsplit
    rw [← hmsplit] at hm
    exact ⟨EnumFile.no_feed_of_read hg.read m hm, hquotes m hm⟩
  -- what the revisions are
  have hadd : Revision.membersOf .add category name f.table g.members = ms ++ name :: ns := by
    rw [Revision.membersOf, hfind, Option.all_none, if_pos rfl, Members.insert,
      if_neg (by simpa using hfresh), hmsort]
  have hremove : Revision.tableOf .remove w category name f₁.table = f.table := by
    rw [← hxname]
    exact Table.erase_insert hfindx hgroup hsort
  have herase : Revision.membersOf .remove category name f₁.table g₁.members = g.members := by
    rw [Revision.membersOf, Members.erase_insert (hmsplit ▸ hfresh), hmsplit]
  have hused : f₁.table.find? name = some category := by
    rw [← hxname]
    exact Table.find?_insert hfindx
  have hmem : name ∈ g₁.members := by simp [g₁]
  have hholds : f₁.table.holds category name = true :=
    List.find?_some (p := (f₁.table.holds · name)) hused
  -- the four edits
  have h : Shows w category d f g := ⟨hs, he, hf, hg⟩
  obtain ⟨d₁, hrun₁, htable₁, hmembers₁⟩ := h.exists_outcome .add hname rfl hadd
  rw [Revision.report_add_of_unused hfind hfresh] at hrun₁
  have h₁ : Shows w category d₁ f₁ g₁ := ⟨htable₁, hmembers₁, hf₁, hg₁⟩
  obtain ⟨d₂, hrun₂, htable₂, hmembers₂⟩ := h₁.exists_outcome .remove hname hremove herase
  rw [Revision.report_remove_of_used hholds hmem] at hrun₂
  have h₂ : Shows w category d₂ f g := ⟨htable₂, hmembers₂, hf, hg⟩
  exact ⟨d₁, d₂, hrun₁, h₁.outcome_of_none .add hname (Revision.add_of_used hused hmem), hrun₂,
    htable₂, hmembers₂, h₂.outcome_of_none .remove hname (Revision.remove_of_unused hfind hfresh)⟩

/-- Files with tabs and carriage returns, where a name with split artwork is added and removed. -/
theorem add_remove_restores_crlf :
    let layout : Layout := ⟨"\t".toList, .crlf⟩
    let f : TableFile := ⟨"export const iconMap = \x7b".toList,
      ⟨[.ofIcon .token "BTC".toList .empty], [], []⟩, "\x7d".toList, layout⟩
    let g : EnumFile :=
      ⟨.token, "export enum TokenSymbol \x7b".toList, ["BTC".toList], "\x7d".toList, layout⟩
    let d := diskWith f.render fun _ => g.render
    let w : Workshop := ⟨⟨"icons".toList⟩, .builtin⟩
    let name := "NEAR".toList
    isValidName name = true ∧ f.IsPrinted f.render ∧ g.IsPrinted .token g.render ∧
    ∃ d₁ d₂, (perform .add w .token name).outcome d = (.ok ⟨.applied, .applied⟩, d₁) ∧
      (perform .add w .token name).outcome d₁ = (.ok ⟨.unchanged, .unchanged⟩, d₁) ∧
      (perform .remove w .token name).outcome d₁ = (.ok ⟨.applied, .applied⟩, d₂) ∧
      d₂.readText (Site.tablePath w.target) = .ok f.render ∧
      d₂.readText (Site.enumPath w.target .token) = .ok g.render ∧
      (perform .remove w .token name).outcome d₂ = (.ok ⟨.unchanged, .unchanged⟩, d₂) := by
  intro layout f g d w name
  have hlayout : Layout.IsUsable layout.indent := ⟨by decide, forall_of_all (by decide)⟩
  have hname : isValidName name = true := by decide
  have hold : IsName "BTC".toList := isValidName_iff.1 (by decide)
  have hicons : f.table.HoldsIcons := fun c e he => by
    cases c with
    | token => exact ⟨_, _, hold, List.mem_singleton.1 he⟩
    | wallet => exact nomatch he
    | system => exact nomatch he
  have hf : f.IsPrinted f.render := by
    have hheader : occurrences Table.header f.render = [⟨0, 24⟩] := by decide +kernel
    exact TableFile.isPrinted_render rfl hheader rfl hlayout hicons.isPrintable (by decide +kernel)
  have hg : g.IsPrinted .token g.render := by
    have hheader : occurrences (Enumeration.header .token) g.render = [⟨0, 25⟩] := by decide +kernel
    exact EnumFile.isPrinted_render rfl hheader rfl hlayout
      (fun m hm => Enumeration.isPrintable_of_isName (List.mem_singleton.1 hm ▸ hold))
      (by decide +kernel)
  have hs := readText_diskWith_table f.render fun _ => g.render
  have he := readText_diskWith_enum f.render (fun _ => g.render) .token
  exact ⟨hname, hf, hg, add_remove_restores hname hs he hf hg (fun c => by cases c <;> decide)
    (by decide) (fun c => by cases c <;> decide) (by decide) (fun c => by cases c <;> decide)
    (by decide)⟩

end Edit
end IconCatalog
