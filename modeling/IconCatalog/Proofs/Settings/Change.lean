import IconCatalog.Command.Configure
import IconCatalog.Proofs.Settings.Store
import Mathlib.Data.List.Induction
/-!
Changes of the settings in a row. Each change reads what the one before it wrote, so behind the last
of them the settings file holds for each key what was given last.
-/
namespace IconCatalog
open Text

namespace SettingsChange

/-- The settings that a change leaves. -/
def after (c : SettingsChange) (s : Settings) : Settings := if c.reset then .empty else c.apply s

/-- What a key holds behind a row of changes: the value that was given last since the last reset.
If none was given, it holds nothing where there was a reset, and else what it held before. -/
def latest (value : SettingsChange → Option Text) (changes : List SettingsChange)
    (initial : Option Text) : Option Text :=
  ((changes.reverse.takeWhile (!·.reset)).findSome? value).or
    (if changes.any (·.reset) then none else initial)

theorem latest_concat (value : SettingsChange → Option Text) (changes : List SettingsChange)
    (c : SettingsChange) (initial : Option Text) : latest value (changes ++ [c]) initial =
      if c.reset then none else (value c).or (latest value changes initial) := by
  cases hreset : c.reset with
  | true => simp [latest, hreset]
  | false => cases hvalue : value c <;> simp [latest, hreset, hvalue]

theorem foldl_after (changes : List SettingsChange) (s : Settings) :
    changes.foldl (fun s c => c.after s) s =
      ⟨latest (·.directory) changes s.directory, latest (·.imageBase) changes s.imageBase,
        latest (·.darkClass) changes s.darkClass⟩ := by
  induction changes using List.reverseRecOn with
  | nil => rfl
  | append_singleton changes c ih =>
    rw [List.foldl_append, ih]
    simp only [latest_concat, List.foldl_cons, List.foldl_nil, after]
    split <;> rfl

end SettingsChange

namespace Command
variable {root : Path} {c : SettingsChange} {d e : Disk}

theorem dependsOnDisk_saySettings (s : Settings) : (saySettings s).DependsOnDisk :=
  (Run.DependsOnDisk.say _).bind fun _ => (Run.DependsOnDisk.say _).bind fun _ => .say _

theorem outcome_saveSettings_bind (s : Settings) {f : Unit → Run Unit}
    (hf : ∀ u, (f u).DependsOnDisk) (hidle : ∀ u e, (f u).outcome e = (.ok (), e)) (d : Disk) :
    (saveSettings root s >>= f).outcome d = (saveSettings root s).outcome d := by
  rw [Run.outcome_bind hf]
  cases h : (saveSettings root s).outcome d with
  | mk result e =>
    cases result with
    | ok u => exact hidle u e
    | error failure => rfl

theorem outcome_changeSettings (hc : c.hasValue = true ∨ c.reset = true) (d : Disk) :
    (changeSettings root c).outcome d =
      (saveSettings root (c.after (Settings.onDisk root d).1)).outcome d := by
  have hsave (s : Settings) : (saveSettings root s).DependsOnDisk :=
    (Settings.dependsOnDisk_save root s).within _
  have hsay (line : Text) (s : Settings) : (do Run.say line; saySettings s).DependsOnDisk :=
    (Run.DependsOnDisk.say line).bind fun _ => dependsOnDisk_saySettings s
  unfold changeSettings SettingsChange.after
  by_cases hreset : c.reset = true
  · rw [if_pos hreset, if_pos hreset]
    exact outcome_saveSettings_bind _ (fun _ => .say _) (fun _ _ => rfl) d
  · have hvalue : c.hasValue = true := hc.resolve_right hreset
    rw [if_neg hreset, if_neg hreset]
    simp only [hvalue, if_true]
    rw [Run.outcome_bind (fun s => (hsave _).bind fun _ => hsay _ _), Settings.outcome_load]
    exact outcome_saveSettings_bind _ (fun _ => hsay _ _) (fun _ _ => rfl) d

theorem onDisk_of_outcome_changeSettings (hc : c.hasValue = true ∨ c.reset = true)
    (h : (changeSettings root c).outcome d = (.ok (), e)) :
    (Settings.onDisk root e).1 = c.after (Settings.onDisk root d).1 := by
  rw [outcome_changeSettings hc] at h
  rw [Settings.onDisk_of_outcome_save (Run.outcome_of_within h)]

theorem onDisk_of_inTurn {changes : List SettingsChange}
    (hchanges : ∀ c ∈ changes, c.hasValue = true ∨ c.reset = true)
    (h : Run.InTurn d (changes.map (changeSettings root)) e) :
    (Settings.onDisk root e).1 =
      changes.foldl (fun s c => c.after s) (Settings.onDisk root d).1 := by
  induction changes generalizing d with
  | nil =>
    cases h with
    | nil => rfl
  | cons c changes ih =>
    cases h with
    | cons hfirst hrest =>
      have hc := hchanges c List.mem_cons_self
      rw [List.foldl_cons, ← onDisk_of_outcome_changeSettings hc hfirst]
      exact ih (fun x hx => hchanges x (List.mem_cons_of_mem c hx)) hrest

/-- The settings can be saved if their path leads to a place that no folder takes. -/
def CanSave (root : Path) (d : Disk) : Prop :=
  ∃ place, d.locate (Settings.path root) = .ok place ∧ d.node? place ≠ some .folder

theorem exists_outcome_save (h : CanSave root d) (s : Settings) :
    ∃ e, (Settings.save root s).outcome d = (.ok (), e) ∧ CanSave root e := by
  obtain ⟨place, hlocate, hnode⟩ := h
  have hkeeps := Disk.keeps_put_file hnode (Disk.encode (s.render ++ ['\n']))
  refine ⟨d.put place (.file (Disk.encode (s.render ++ ['\n']))), ?_, place,
    hkeeps.locate hlocate, ?_⟩
  · rw [Settings.outcome_save, Disk.writeText_eq_ok_iff.2 ⟨place, hlocate, hnode, rfl⟩]
  · rw [Disk.node?_put (Disk.ne_nil_of_node? hnode), if_pos rfl]
    exact nofun

theorem exists_inTurn_changeSettings {changes : List SettingsChange}
    (hchanges : ∀ c ∈ changes, c.hasValue = true ∨ c.reset = true) (h : CanSave root d) :
    ∃ e, Run.InTurn d (changes.map (changeSettings root)) e := by
  induction changes generalizing d with
  | nil => exact ⟨d, .nil⟩
  | cons c changes ih =>
    have hc := hchanges c List.mem_cons_self
    obtain ⟨e, hsave, he⟩ := exists_outcome_save h (c.after (Settings.onDisk root d).1)
    have hfirst : (changeSettings root c).outcome d = (.ok (), e) :=
      (outcome_changeSettings hc d).trans (Run.outcome_within hsave _)
    obtain ⟨f, hrest⟩ := ih (fun x hx => hchanges x (List.mem_cons_of_mem c hx)) he
    exact ⟨f, .cons hfirst hrest⟩

/-- Whatever the settings file held before, and whatever characters the values have: behind a row
of calls that succeed, each key is loaded with the value that was given last since the last reset,
and without one with nothing if there was a reset, else with what was loaded before. Saved settings
are loaded as they were saved. -/
theorem load_after_changeSettings (root : Path) :
    (∀ (changes : List SettingsChange) (d e : Disk),
      (∀ c ∈ changes, c.hasValue = true ∨ c.reset = true) →
      Run.InTurn d (changes.map (changeSettings root)) e →
      ∃ before, (Settings.load root).outcome d = (.ok before, d) ∧
        (Settings.load root).outcome e =
          (.ok ⟨SettingsChange.latest (·.directory) changes before.directory,
            SettingsChange.latest (·.imageBase) changes before.imageBase,
            SettingsChange.latest (·.darkClass) changes before.darkClass⟩, e)) ∧
    ∀ (s : Settings) (d e : Disk), (Settings.save root s).outcome d = (.ok (), e) →
      (Settings.load root).outcome e = (.ok s, e) := by
  refine ⟨fun changes d e hchanges hturn => ?_, fun s d e hsave => ?_⟩
  · refine ⟨(Settings.onDisk root d).1, Settings.outcome_load root d, ?_⟩
    rw [Settings.outcome_load, onDisk_of_inTurn hchanges hturn, SettingsChange.foldl_after]
  · rw [Settings.outcome_load, Settings.onDisk_of_outcome_save hsave]

def brokenSettings : Disk where
  nodes := [(["project".toList], .folder),
    (["project".toList, ".crypto-icons.json".toList], .file (Disk.encode "not settings".toList))]
  home := []

def mixedChanges : List SettingsChange :=
  [⟨some "lib\\icons".toList, none, some "dark".toList, false⟩,
    ⟨some "ignored".toList, none, none, true⟩,
    ⟨none, some "/ä/\x22\n\u0001\uffff".toList, some "night".toList, false⟩,
    ⟨none, none, some "".toList, false⟩]

theorem load_after_changeSettings_mixed :
    let root : Path := ⟨"project".toList⟩
    (∃ e, Run.InTurn brokenSettings (mixedChanges.map (changeSettings root)) e ∧
      (Settings.load root).outcome e =
        (.ok ⟨none, some "/ä/\x22\n\u0001\uffff".toList, some "".toList⟩, e)) ∧
    ∃ s e, (Settings.save root s).outcome brokenSettings = (.ok (), e) ∧
      (Settings.load root).outcome e = (.ok s, e) ∧ s.directory = some "lib\\icons".toList := by
  intro root
  have hcan : CanSave root brokenSettings :=
    ⟨["project".toList, ".crypto-icons.json".toList], rfl, nofun⟩
  have hchanges : ∀ c ∈ mixedChanges, c.hasValue = true ∨ c.reset = true := by decide
  constructor
  · obtain ⟨e, hturn⟩ := exists_inTurn_changeSettings hchanges hcan
    obtain ⟨before, -, hload⟩ :=
      (load_after_changeSettings root).1 mixedChanges brokenSettings e hchanges hturn
    exact ⟨e, hturn, hload⟩
  · let s : Settings := ⟨some "lib\\icons".toList, none, none⟩
    obtain ⟨e, hsave, -⟩ := exists_outcome_save hcan s
    exact ⟨s, e, hsave, (load_after_changeSettings root).2 s brokenSettings e hsave, rfl⟩

end Command
end IconCatalog
