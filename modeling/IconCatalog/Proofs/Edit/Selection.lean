import IconCatalog.Command.Edit
import IconCatalog.Proofs.Edit.Perform
import IconCatalog.Proofs.Settings.Store
/-!
Edits of a selection of names. An edit that fails leaves the disk as it found it, so a selection
that cannot be edited to its end leaves exactly what the edits before the first failure made of it.
-/
namespace IconCatalog
open Text

def Selection.requests (s : Selection) : List (Category × Text) :=
  s.tokens.map (.token, ·) ++ s.wallets.map (.wallet, ·) ++ s.systems.map (.system, ·)

theorem Selection.flatMap_groups (s : Selection) :
    s.groups.flatMap (fun g => g.2.map (g.1, ·)) = s.requests := by
  have hall (cs : List Category) :
      ((cs.map fun c => (c, s.names c)).filter (·.2 ≠ [])).flatMap (fun g => g.2.map (g.1, ·)) =
        cs.flatMap fun c => (s.names c).map (c, ·) := by
    induction cs with
    | nil => rfl
    | cons c cs ih =>
      rw [List.map_cons, List.flatMap_cons, ← ih]
      by_cases h : s.names c = []
      · rw [List.filter_cons_of_neg (by simpa using h), h, List.map_nil, List.nil_append]
      · rw [List.filter_cons_of_pos (by simpa using h), List.flatMap_cons]
  rw [groups, hall, requests, List.append_assoc]
  simp [Category.all, names]

namespace Edit
variable {w : Workshop} {category : Category} {name : Text}

theorem exec_read_cases {α : Type} (path : Path) {read : Text → Except Source.Fault α}
    {next : Text → Run α}
    (hnext : ∀ t fault, read t = .error fault → next t = Run.fail (.malformed path fault))
    (p : Progress) :
    (∃ f, Run.exec (Run.readGenerated path >>= next) p = (.error f, p)) ∨
      ∃ t a, p.disk.readText path = .ok t ∧ read t = .ok a := by
  cases Run.exec_readGenerated_cases path p with
  | inl h =>
    obtain ⟨f, hf⟩ := h
    exact .inl ⟨f, by rw [Run.exec_bind, hf]⟩
  | inr h =>
    obtain ⟨t, ht⟩ := h
    cases ha : read t with
    | ok a => exact .inr ⟨t, a, ht, ha⟩
    | error fault =>
      refine .inl ⟨⟨[], .malformed path fault⟩, ?_⟩
      rw [Run.exec_bind_ok (Run.exec_readGenerated ht), hnext t fault ha, Run.exec_fail]

theorem exec_readTable_cases (w : Workshop) (p : Progress) :
    (∃ f, Run.exec (readTable w) p = (.error f, p)) ∨
      ∃ s t, p.disk.readText (Site.tablePath w.target) = .ok s ∧ TableFile.read s = .ok t :=
  exec_read_cases _ (fun t fault h => by simp only [h]) p

theorem exec_readEnum_cases (w : Workshop) (category : Category) (p : Progress) :
    (∃ f, Run.exec (readEnum w category) p = (.error f, p)) ∨
      ∃ e g, p.disk.readText (Site.enumPath w.target category) = .ok e ∧
        EnumFile.read category e = .ok g :=
  exec_read_cases _ (fun t fault h => by simp only [h]) p

theorem exec_plan_cases (action : Action) (w : Workshop) (category : Category)
    (hname : isValidName name = true) (p : Progress) :
    (∃ f, Run.exec (plan action w category name) p = (.error f, p)) ∨
      ∃ s t e g, p.disk.readText (Site.tablePath w.target) = .ok s ∧ TableFile.read s = .ok t ∧
        p.disk.readText (Site.enumPath w.target category) = .ok e ∧
        EnumFile.read category e = .ok g := by
  cases exec_readTable_cases w p with
  | inl h =>
    obtain ⟨f, hf⟩ := h
    refine .inl ⟨f, ?_⟩
    rw [plan]
    simp only [hname, if_true]
    rw [Run.exec_bind, hf]
  | inr h =>
    obtain ⟨s, t, hs, ht⟩ := h
    have htable := exec_readTable hs ht
    cases exec_readEnum_cases w category p with
    | inl h =>
      obtain ⟨f, hf⟩ := h
      refine .inl ⟨f, ?_⟩
      rw [plan]
      simp only [hname, if_true]
      rw [Run.exec_bind_ok htable, Run.exec_bind, hf]
    | inr h =>
      obtain ⟨e, g, he, hg⟩ := h
      exact .inr ⟨s, t, e, g, hs, ht, he, hg⟩

theorem outcome_cases (action : Action) (w : Workshop) (category : Category) (name : Text)
    (d : Disk) :
    (∃ f, (perform action w category name).outcome d = (.error f, d)) ∨
      ∃ report e, (perform action w category name).outcome d = (.ok report, e) := by
  by_cases hname : isValidName name = true
  · cases exec_plan_cases action w category hname (.start d) with
    | inl h =>
      obtain ⟨f, hf⟩ := h
      refine .inl ⟨f, ?_⟩
      rw [Run.outcome, perform, Run.exec_bind, hf]
      rfl
    | inr h =>
      obtain ⟨s, t, e, g, hs, ht, he, hg⟩ := h
      obtain ⟨d', hd', -⟩ := exists_outcome action hname hs he ht hg
      exact .inr ⟨_, d', hd'⟩
  · exact .inl ⟨_, outcome_of_invalid action w category (by simpa using hname) d⟩

theorem dependsOnDisk_plan (action : Action) (w : Workshop) (category : Category) (name : Text) :
    (plan action w category name).DependsOnDisk := by
  have htable : (readTable w).DependsOnDisk := by
    refine (Run.DependsOnDisk.readGenerated _).bind fun t => ?_
    cases TableFile.read t with
    | ok f => exact .pure f
    | error fault => exact .fail _
  have henum : (readEnum w category).DependsOnDisk := by
    refine (Run.DependsOnDisk.readGenerated _).bind fun t => ?_
    cases EnumFile.read category t with
    | ok f => exact .pure f
    | error fault => exact .fail _
  have hboth := htable.bind fun t => henum.bind fun e => .pure
    (t, e, Revision.make action w category name t.table e.members)
  rw [plan]
  split
  · exact hboth
  · exact (Run.DependsOnDisk.fail _).bind fun _ => hboth

theorem dependsOnDisk_step? {o : Option α} {f : α → Run Unit} (h : ∀ a, (f a).DependsOnDisk) :
    (step? o f).DependsOnDisk := by
  cases o with
  | none => exact .pure ()
  | some a => exact h a

theorem dependsOnDisk_perform (action : Action) (w : Workshop) (category : Category)
    (name : Text) : (perform action w category name).DependsOnDisk := by
  have htable (f : TableFile) (t : Table) :
      (writeTable action w category name f t).DependsOnDisk :=
    (Run.DependsOnDisk.change _).bind fun _ => .note _
  have henum (g : EnumFile) (ms : Members) :
      (writeEnum action w category name g ms).DependsOnDisk :=
    (Run.DependsOnDisk.change _).bind fun _ => .note _
  rw [perform_eq]
  refine .bind ?_ fun (g, r) => (dependsOnDisk_step? (henum g)).bind fun _ => .pure _
  refine (dependsOnDisk_plan action w category name).bind fun (t, g, r) => ?_
  exact (dependsOnDisk_step? .note).bind fun _ => (dependsOnDisk_step? (htable t)).bind fun _ =>
    .pure _

/-- A run that makes edits one after another. It succeeds with the last of them, or the first one
that fails ends it with its failure, on the disk that the edits before it left. -/
structure CarriesOut (action : Action) (w : Workshop) (requests : List (Category × Text))
    (r : Run α) : Prop where
  dependsOnDisk : r.DependsOnDisk
  outcome : ∀ d, ∃ done left e, requests = done ++ left ∧
    Run.InTurn d (done.map fun x => perform action w x.1 x.2) e ∧
    ((left = [] ∧ ∃ a, r.outcome d = (.ok a, e)) ∨
      ∃ c name rest f, left = (c, name) :: rest ∧
        (perform action w c name).outcome e = (.error f, e) ∧
        r.outcome d = (.error ⟨Command.editContext action c name :: f.contexts, f.cause⟩, e))

namespace CarriesOut
variable {action : Action} {xs ys : List (Category × Text)} {r : Run α} {f : α → Run β}

theorem idle (h : r.DependsOnDisk) (hr : ∀ d, ∃ a, r.outcome d = (.ok a, d)) :
    CarriesOut action w [] r :=
  ⟨h, fun d => ⟨[], [], d, rfl, .nil, .inl ⟨rfl, hr d⟩⟩⟩

theorem bind (hr : CarriesOut action w xs r) (hf : ∀ a, CarriesOut action w ys (f a)) :
    CarriesOut action w (xs ++ ys) (r >>= f) := by
  refine ⟨hr.dependsOnDisk.bind fun a => (hf a).dependsOnDisk, fun d => ?_⟩
  have hbind := Run.outcome_bind (r := r) (fun a => (hf a).dependsOnDisk) d
  obtain ⟨done, left, e, rfl, hturn, hend⟩ := hr.outcome d
  cases hend with
  | inl h =>
    obtain ⟨rfl, a, ha⟩ := h
    obtain ⟨done', left, e', rfl, hturn', hend⟩ := (hf a).outcome e
    rw [ha] at hbind
    refine ⟨done ++ done', left, e', by simp, by simpa using hturn.append hturn', ?_⟩
    rwa [hbind]
  | inr h =>
    obtain ⟨c, name, rest, failure, rfl, hfail, ha⟩ := h
    rw [ha] at hbind
    exact ⟨done, (c, name) :: (rest ++ ys), e, by simp, hturn,
      .inr ⟨c, name, _, failure, rfl, hfail, hbind⟩⟩

theorem bind_idle (hr : CarriesOut action w xs r) (hf : ∀ a, CarriesOut action w [] (f a)) :
    CarriesOut action w xs (r >>= f) := by
  have h := hr.bind hf
  rwa [List.append_nil] at h

theorem say (action : Action) (w : Workshop) (line : Text) :
    CarriesOut action w [] (Run.say line) :=
  idle (.say line) fun _ => ⟨(), rfl⟩

theorem pure (action : Action) (w : Workshop) (a : α) : CarriesOut action w [] (pure a : Run α) :=
  idle (.pure a) fun _ => ⟨a, rfl⟩

end CarriesOut

end Edit

namespace Command
open Edit

theorem carriesOut_editName (action : Action) (w : Workshop) (category : Category) (name : Text) :
    CarriesOut action w [(category, name)] (editName action w category name) := by
  have hsay (report : Report) (line line' : Text) : CarriesOut action w []
      (if report.table = .applied then do Run.say line; return true
        else do Run.say line'; return false) := by
    split
    · exact (CarriesOut.say action w line).bind fun _ => .pure action w true
    · exact (CarriesOut.say action w line').bind fun _ => .pure action w false
  have hedit : CarriesOut action w [(category, name)]
      (Run.within (editContext action category name) (perform action w category name)) := by
    refine ⟨(dependsOnDisk_perform action w category name).within _, fun d => ?_⟩
    cases outcome_cases action w category name d with
    | inl h =>
      obtain ⟨f, hf⟩ := h
      exact ⟨[], [(category, name)], d, rfl, .nil,
        .inr ⟨category, name, [], f, rfl, hf, Run.outcome_within_error hf _⟩⟩
    | inr h =>
      obtain ⟨report, e, he⟩ := h
      exact ⟨[(category, name)], [], e, rfl, .cons he .nil,
        .inl ⟨rfl, report, Run.outcome_within he _⟩⟩
  exact hedit.bind fun report => hsay report _ _

theorem carriesOut_editNames (action : Action) (w : Workshop) (category : Category)
    (names : List Text) : CarriesOut action w (names.map (category, ·))
      (editNames action w category names) := by
  induction names with
  | nil => exact .pure action w 0
  | cons name names ih =>
    have hname := carriesOut_editName action w category name
    refine hname.bind fun changed => ?_
    exact ih.bind_idle fun others => .pure action w _

theorem carriesOut_editGroups (action : Action) (w : Workshop)
    (groups : List (Category × List Text)) :
    CarriesOut action w (groups.flatMap fun g => g.2.map (g.1, ·))
      (editGroups action w groups) := by
  induction groups with
  | nil => exact .pure action w 0
  | cons group groups ih =>
    obtain ⟨category, names⟩ := group
    refine (CarriesOut.say action w _).bind fun _ => ?_
    refine (carriesOut_editNames action w category names).bind fun changed => ?_
    exact ih.bind_idle fun others => .pure action w _

theorem carriesOut_sayUsage (action : Action) (w : Workshop) (verb : Text) :
    CarriesOut action w [] (sayUsage verb) :=
  (CarriesOut.say action w _).bind fun _ => (CarriesOut.say action w _).bind fun _ =>
    (CarriesOut.say action w _).bind fun _ => CarriesOut.say action w _

theorem exists_editSelection_eq (action : Action) (root : Path) (selection : Selection)
    (dir : Option Path) : ∃ next : Settings → Run Unit,
      editSelection action root selection dir = Settings.load root >>= next ∧
      ∀ s, CarriesOut action ⟨s.target root dir, .builtin⟩ selection.requests (next s) := by
  refine ⟨_, rfl, fun s => ?_⟩
  dsimp only
  by_cases hempty : selection.isEmpty = true
  · have hrequests : selection.requests = [] := by
      simpa [Selection.isEmpty, Selection.requests, and_assoc] using hempty
    rw [if_pos hempty, hrequests]
    exact (CarriesOut.say action _ _).bind fun _ => carriesOut_sayUsage action _ _
  · rw [if_neg hempty, ← selection.flatMap_groups]
    refine (CarriesOut.say action _ _).bind fun _ => ?_
    exact (carriesOut_editGroups action _ selection.groups).bind_idle fun _ => .say action _ _

/-- An edit that fails leaves the disk as it was. A selection is edited name by name in the order of
its categories, up to the first name that fails; it leaves what the edits before that name made of
the disk, and fails exactly if there is such a name. -/
theorem editSelection_stops_at_failure :
    (∀ action w category name d,
      (∃ f, (perform action w category name).outcome d = (.error f, d)) ∨
        ∃ report e, (perform action w category name).outcome d = (.ok report, e)) ∧
    ∀ action root selection dir d,
      let w : Workshop := ⟨(Settings.onDisk root d).1.target root dir, .builtin⟩
      ∃ done left e, selection.requests = done ++ left ∧
        Run.InTurn d (done.map fun x => perform action w x.1 x.2) e ∧
        ((left = [] ∧ (editSelection action root selection dir).outcome d = (.ok (), e)) ∨
          ∃ category name rest f, left = (category, name) :: rest ∧
            (perform action w category name).outcome e = (.error f, e) ∧
            (editSelection action root selection dir).outcome d =
              (.error ⟨editContext action category name :: f.contexts, f.cause⟩, e)) := by
  refine ⟨outcome_cases, fun action root selection dir d => ?_⟩
  obtain ⟨next, hnext, hedits⟩ := exists_editSelection_eq action root selection dir
  have hbind := Run.outcome_bind (r := Settings.load root) (fun s => (hedits s).dependsOnDisk) d
  rw [← hnext, Settings.outcome_load] at hbind
  rw [hbind]
  obtain ⟨done, left, e, hrequests, hturn, hend⟩ := (hedits (Settings.onDisk root d).1).outcome d
  refine ⟨done, left, e, hrequests, hturn, hend.imp ?_ id⟩
  rintro ⟨hleft, a, ha⟩
  exact ⟨hleft, ha⟩

end Command
end IconCatalog
