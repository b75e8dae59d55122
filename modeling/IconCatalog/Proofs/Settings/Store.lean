import IconCatalog.Settings.Store
import IconCatalog.Proofs.Disk.Growth
import IconCatalog.Proofs.Run
import IconCatalog.Proofs.Settings.Document
/-!
Loading and saving the settings of a project. Loading succeeds on every disk and leaves it alone;
what was saved is what is loaded.
-/
namespace IconCatalog
open Text

namespace Settings

def fileName : Text := ".crypto-icons.json".toList

theorem isFileName_fileName : Disk.IsFileName fileName := by decide

theorem onDisk_of_error {root : Path} {d : Disk} {fault : DiskFault}
    (h : d.readText (path root) = .error fault) : (onDisk root d).1 = .empty := by
  cases fault <;> simp [onDisk, h]

theorem onDisk_congr {root : Path} {d e : Disk}
    (h : ∀ t, e.readText (path root) = .ok t ↔ d.readText (path root) = .ok t) :
    (onDisk root e).1 = (onDisk root d).1 := by
  cases hd : d.readText (path root) with
  | ok t => rw [onDisk, onDisk, (h t).2 hd, hd]
  | error fault =>
    cases he : e.readText (path root) with
    | ok t => exact nomatch ((h t).1 he).symm.trans hd
    | error fault' => rw [onDisk_of_error hd, onDisk_of_error he]

theorem exists_exec_load (root : Path) (p : Progress) : ∃ notices,
    Run.exec (load root) p = (.ok (onDisk root p.disk).1, { p with notices := notices }) := by
  rw [load, Run.exec_bind_ok (Run.exec_disk p)]
  cases onDisk root p.disk with
  | mk s notice? =>
    cases notice? with
    | none => exact ⟨p.notices, rfl⟩
    | some notice => exact ⟨p.notices ++ [notice], rfl⟩

theorem outcome_load (root : Path) (d : Disk) :
    (load root).outcome d = (.ok (onDisk root d).1, d) := by
  obtain ⟨notices, hload⟩ := exists_exec_load root (.start d)
  rw [Run.outcome, hload]
  rfl

theorem dependsOnDisk_save (root : Path) (s : Settings) : (save root s).DependsOnDisk :=
  .change _

theorem outcome_save (root : Path) (s : Settings) (d : Disk) : (save root s).outcome d =
    match d.writeText (path root) (s.render ++ ['\n']) with
    | .ok e => (.ok (), e)
    | .error fault => (.error ⟨[], .disk fault⟩, d) := by
  rw [save, Run.outcome, Run.exec_change_eq]
  dsimp only [Progress.start]
  cases d.writeText (path root) (s.render ++ ['\n']) <;> rfl

theorem onDisk_of_outcome_save {root : Path} {s : Settings} {d e : Disk}
    (h : (save root s).outcome d = (.ok (), e)) : onDisk root e = (s, none) := by
  rw [outcome_save] at h
  cases hwrite : d.writeText (path root) (s.render ++ ['\n']) with
  | error fault => simp [hwrite] at h
  | ok e' =>
    rw [hwrite] at h
    obtain rfl : e' = e := congrArg Prod.snd h
    simp only [onDisk, Disk.readText_of_writeText hwrite, read?_render]

end Settings

end IconCatalog
