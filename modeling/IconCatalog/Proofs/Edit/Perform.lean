import IconCatalog.Edit
import IconCatalog.Proofs.Disk
import IconCatalog.Proofs.Run
import IconCatalog.Proofs.Source.Token
/-!
What one edit does. An invalid name stops it before anything is read; otherwise it succeeds on files
that can be read, writes those that change and leaves every other file alone.
-/
namespace IconCatalog
open Text

namespace Edit
open Source
variable {w : Workshop} {category : Category} {name : Text}

theorem isValidName_iff : isValidName name = true ↔ IsName name := by
  simp [isValidName, IsName]

theorem isFileName_table : Disk.IsFileName "imagePaths.ts".toList := by decide

theorem isFileName_enum (c : Category) : Disk.IsFileName (c.enumName ++ ".ts".toList) := by
  cases c <;> decide

theorem locate_enumPath_ne {target : Path} {d : Disk} {t : Text}
    (h : d.readText (Site.tablePath target) = .ok t) (c : Category) :
    d.locate (Site.enumPath target c) ≠ d.locate (Site.tablePath target) := by
  obtain ⟨place, content, hlocate, -⟩ := Disk.readText_eq_ok_iff.1 h
  exact Disk.locate_child_ne isFileName_table (isFileName_enum c) (by cases c <;> decide) hlocate

theorem locate_enumPath_inj {target : Path} {d : Disk} {t : Text} {c c' : Category}
    (h : d.readText (Site.enumPath target c) = .ok t) (hne : c' ≠ c) :
    d.locate (Site.enumPath target c') ≠ d.locate (Site.enumPath target c) := by
  obtain ⟨place, content, hlocate, -⟩ := Disk.readText_eq_ok_iff.1 h
  refine Disk.locate_child_ne (isFileName_enum c) (isFileName_enum c') ?_ hlocate
  cases c <;> cases c' <;> first | exact absurd rfl hne | decide

/-- The disk of an edit after it: the two files hold new texts, and nothing else has changed. -/
structure Updates (w : Workshop) (category : Category) (d e : Disk) (table members : Text) :
    Prop where
  table : e.readText (Site.tablePath w.target) = .ok table
  members : e.readText (Site.enumPath w.target category) = .ok members
  others : ∀ path, d.locate path ≠ d.locate (Site.tablePath w.target) →
    d.locate path ≠ d.locate (Site.enumPath w.target category) → e.readText path = d.readText path
  places : ∀ path, e.locate path = d.locate path

theorem outcome_of_invalid (action : Action) (w : Workshop) (category : Category)
    (h : isValidName name = false) (d : Disk) :
    (perform action w category name).outcome d = (.error ⟨[], .invalidName name⟩, d) := by
  have hplan : Run.exec (plan action w category name) (.start d) =
      (.error ⟨[], .invalidName name⟩, .start d) := by
    rw [plan]
    simp only [h]
    rfl
  rw [Run.outcome, perform, Run.exec_bind, hplan]
  rfl

def step? (o : Option α) (f : α → Run Unit) : Run Unit :=
  match o with
  | some a => f a
  | none => pure ()

/-- An edit up to its second write. It tells what is left to be done. -/
def firstHalf (action : Action) (w : Workshop) (category : Category) (name : Text) :
    Run (EnumFile × Revision) := do
  let (t, e, r) ← plan action w category name
  step? r.warning? Run.note
  step? r.table? (writeTable action w category name t)
  return (e, r)

def secondHalf (action : Action) (w : Workshop) (category : Category) (name : Text)
    (left : EnumFile × Revision) : Run Report := do
  step? left.2.members? (writeEnum action w category name left.1)
  return left.2.report

theorem perform_eq (action : Action) (w : Workshop) (category : Category) (name : Text) :
    perform action w category name =
      firstHalf action w category name >>= secondHalf action w category name := by
  simp only [perform, firstHalf, secondHalf, bind_assoc, pure_bind]
  refine bind_congr fun ⟨t, e, r⟩ => ?_
  obtain ⟨table?, members?, warning?⟩ := r
  cases warning? <;> cases table? <;> cases members? <;> rfl

theorem exec_readTable {p : Progress} {s : Text} {f : TableFile}
    (hs : p.disk.readText (Site.tablePath w.target) = .ok s) (hf : TableFile.read s = .ok f) :
    Run.exec (readTable w) p = (.ok f, p) := by
  rw [readTable, Run.exec_bind_ok (Run.exec_readGenerated hs)]
  simp only [hf]
  rfl

theorem exec_readEnum {p : Progress} {e : Text} {g : EnumFile}
    (he : p.disk.readText (Site.enumPath w.target category) = .ok e)
    (hg : EnumFile.read category e = .ok g) :
    Run.exec (readEnum w category) p = (.ok g, p) := by
  rw [readEnum, Run.exec_bind_ok (Run.exec_readGenerated he)]
  simp only [hg]
  rfl

theorem exec_plan (action : Action) (hname : isValidName name = true) {p : Progress} {s e : Text}
    {f : TableFile} {g : EnumFile} (hs : p.disk.readText (Site.tablePath w.target) = .ok s)
    (he : p.disk.readText (Site.enumPath w.target category) = .ok e)
    (hf : TableFile.read s = .ok f) (hg : EnumFile.read category e = .ok g) :
    Run.exec (plan action w category name) p =
      (.ok (f, g, Revision.make action w category name f.table g.members), p) := by
  rw [plan]
  simp only [hname, if_true]
  rw [Run.exec_bind_ok (exec_readTable hs hf), Run.exec_bind_ok (exec_readEnum he hg)]
  rfl

theorem exec_warning (o : Option Notice) (p : Progress) :
    ∃ q, Run.exec (step? o Run.note) p = (.ok (), q) ∧ q.disk = p.disk := by
  cases o with
  | none => exact ⟨p, rfl, rfl⟩
  | some n => exact ⟨_, rfl, rfl⟩

def tableText (r : Revision) (f : TableFile) (s : Text) : Text :=
  match r.table? with
  | none => s
  | some t => { f with table := t }.render

theorem tableText_of_canonical {r : Revision} {f : TableFile} {s : Text} (h : f.render = s) :
    tableText r f s = { f with table := r.table?.getD f.table }.render := by
  unfold tableText
  cases r.table? with
  | none => exact h.symm
  | some t => rfl

def membersText (r : Revision) (g : EnumFile) (e : Text) : Text :=
  match r.members? with
  | none => e
  | some ms => { g with members := ms }.render

theorem membersText_of_canonical {r : Revision} {g : EnumFile} {e : Text} (h : g.render = e) :
    membersText r g e = { g with members := r.members?.getD g.members }.render := by
  unfold membersText
  cases r.members? with
  | none => exact h.symm
  | some ms => rfl

theorem exec_writeTable (action : Action) (category : Category) (name : Text) (r : Revision)
    (f : TableFile) {p : Progress} {s : Text}
    (hs : p.disk.readText (Site.tablePath w.target) = .ok s) :
    ∃ q, Run.exec (step? r.table? (writeTable action w category name f)) p = (.ok (), q) ∧
      (r.table? = none → q.disk = p.disk) ∧
      q.disk.readText (Site.tablePath w.target) = .ok (tableText r f s) ∧
      (∀ path, q.disk.locate path = p.disk.locate path) ∧
      ∀ path, p.disk.locate path ≠ p.disk.locate (Site.tablePath w.target) →
        q.disk.readText path = p.disk.readText path := by
  unfold tableText
  cases r.table? with
  | none => exact ⟨p, rfl, fun _ => rfl, hs, fun _ => rfl, fun _ _ => rfl⟩
  | some t =>
    obtain ⟨d, hd, hread, hplaces, hothers⟩ := Disk.exists_writeText hs { f with table := t }.render
    refine ⟨⟨d, p.notices ++ [tableNotice action category name], p.printed⟩, ?_, by simp,
      hread, hplaces, hothers⟩
    rw [step?, writeTable, Run.exec_bind_ok (Run.exec_change hd)]
    rfl

theorem exec_writeEnum (action : Action) (name : Text) (r : Revision) (g : EnumFile)
    {p : Progress} {e : Text}
    (he : p.disk.readText (Site.enumPath w.target category) = .ok e) :
    ∃ q, Run.exec (step? r.members? (writeEnum action w category name g)) p = (.ok (), q) ∧
      (r.members? = none → q.disk = p.disk) ∧
      q.disk.readText (Site.enumPath w.target category) = .ok (membersText r g e) ∧
      (∀ path, q.disk.locate path = p.disk.locate path) ∧
      ∀ path, p.disk.locate path ≠ p.disk.locate (Site.enumPath w.target category) →
        q.disk.readText path = p.disk.readText path := by
  unfold membersText
  cases r.members? with
  | none => exact ⟨p, rfl, fun _ => rfl, he, fun _ => rfl, fun _ _ => rfl⟩
  | some ms =>
    obtain ⟨d, hd, hread, hplaces, hothers⟩ :=
      Disk.exists_writeText he { g with members := ms }.render
    refine ⟨⟨d, p.notices ++ [enumNotice action category name], p.printed⟩, ?_, by simp,
      hread, hplaces, hothers⟩
    rw [step?, writeEnum, Run.exec_bind_ok (Run.exec_change hd)]
    rfl

theorem exists_firstHalf (action : Action) (hname : isValidName name = true) {d : Disk} {s e : Text}
    {f : TableFile} {g : EnumFile} (hs : d.readText (Site.tablePath w.target) = .ok s)
    (he : d.readText (Site.enumPath w.target category) = .ok e)
    (hf : TableFile.read s = .ok f) (hg : EnumFile.read category e = .ok g) :
    let r := Revision.make action w category name f.table g.members
    ∃ p, Run.exec (firstHalf action w category name) (.start d) = (.ok (g, r), p) ∧
      (r.table? = none → p.disk = d) ∧
      p.disk.readText (Site.tablePath w.target) = .ok (tableText r f s) ∧
      (∀ path, p.disk.locate path = d.locate path) ∧
      ∀ path, d.locate path ≠ d.locate (Site.tablePath w.target) →
        p.disk.readText path = d.readText path := by
  intro r
  have hplan := exec_plan action (p := .start d) hname hs he hf hg
  obtain ⟨p₁, h₁, hdisk₁⟩ := exec_warning r.warning? (.start d)
  rw [show (Progress.start d).disk = d from rfl] at hdisk₁
  obtain ⟨p₂, h₂, hsame, htable, hplaces, hothers⟩ :=
    exec_writeTable action category name r f (hdisk₁ ▸ hs)
  rw [hdisk₁] at hsame hplaces hothers
  refine ⟨p₂, ?_, hsame, htable, hplaces, hothers⟩
  rw [firstHalf, Run.exec_bind_ok hplan, Run.exec_bind_ok h₁, Run.exec_bind_ok h₂]
  rfl

/-- On files that are read, an edit with a valid name succeeds. It leaves the texts of the revision
in both files and the disk as it was where nothing is revised. -/
theorem exists_outcome (action : Action) (hname : isValidName name = true) {d : Disk} {s e : Text}
    {f : TableFile} {g : EnumFile} (hs : d.readText (Site.tablePath w.target) = .ok s)
    (he : d.readText (Site.enumPath w.target category) = .ok e)
    (hf : TableFile.read s = .ok f) (hg : EnumFile.read category e = .ok g) :
    let r := Revision.make action w category name f.table g.members
    ∃ d', (perform action w category name).outcome d = (.ok r.report, d') ∧
      Updates w category d d' (tableText r f s) (membersText r g e) ∧
      (r.table? = none → r.members? = none → d' = d) := by
  intro r
  obtain ⟨p, hfirst, hsame, htable, hplaces, hothers⟩ := exists_firstHalf action hname hs he hf hg
  have hne := locate_enumPath_ne hs category
  have he' := (hothers _ hne).trans he
  obtain ⟨q, hsecond, hsame', hmembers, hplaces', hothers'⟩ := exec_writeEnum action name r g he'
  refine ⟨q.disk, ?_, ⟨?_, hmembers, fun path ht hm => ?_, fun path => ?_⟩, fun ht hm => ?_⟩
  · rw [Run.outcome, perform_eq, Run.exec_bind_ok hfirst, secondHalf, Run.exec_bind_ok hsecond]
    rfl
  · rw [hothers' _ (by rw [hplaces, hplaces]; exact Ne.symm hne), htable]
  · rw [hothers' _ (by rw [hplaces, hplaces]; exact hm), hothers _ ht]
  · rw [hplaces', hplaces]
  · rw [hsame' hm, hsame ht]

theorem disk_secondHalf_congr (action : Action) (g : EnumFile) {r r' : Revision} {p q : Progress}
    (hmembers : r.members? = r'.members?) (hdisk : p.disk = q.disk) :
    (Run.exec (secondHalf action w category name (g, r)) p).2.disk =
      (Run.exec (secondHalf action w category name (g, r')) q).2.disk := by
  unfold secondHalf
  dsimp only
  rw [hmembers]
  cases r'.members? with
  | none => exact hdisk
  | some ms =>
    simp only [step?, writeEnum, Run.exec_bind, Run.exec_change_eq, hdisk]
    cases q.disk.writeText (Site.enumPath w.target category) { g with members := ms }.render with
    | ok d => rfl
    | error fault => exact hdisk

def diskWith (table : Text) (members : Category → Text) : Disk where
  nodes :=
    [(["icons".toList], .folder), (["icons".toList, "constants".toList], .folder),
      (["icons".toList, "types".toList], .folder),
      (["icons".toList, "constants".toList, "imagePaths.ts".toList], .file (Disk.encode table))] ++
    Category.all.map fun c =>
      (["icons".toList, "types".toList, c.enumName ++ ".ts".toList],
        .file (Disk.encode (members c)))
  home := []

theorem readText_diskWith_table (table : Text) (members : Category → Text) :
    (diskWith table members).readText (Site.tablePath ⟨"icons".toList⟩) = .ok table :=
  Disk.readText_eq_ok_iff.2 ⟨["icons".toList, "constants".toList, "imagePaths.ts".toList], _,
    by rfl,
    by rfl, Disk.decode?_encode _⟩

theorem readText_diskWith_enum (table : Text) (members : Category → Text) (c : Category) :
    (diskWith table members).readText (Site.enumPath ⟨"icons".toList⟩ c) = .ok (members c) :=
  Disk.readText_eq_ok_iff.2 ⟨["icons".toList, "types".toList, c.enumName ++ ".ts".toList], _,
    by cases c <;> rfl, by cases c <;> rfl, Disk.decode?_encode _⟩

end Edit
end IconCatalog
