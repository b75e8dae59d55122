import IconCatalog.Proofs.Disk.Growth
import IconCatalog.Proofs.Run
/-!
Creating folders only adds. Once a folder was asked for and given it is there, so asking again
finds nothing to do.
-/
namespace IconCatalog
open Text Disk

namespace Run
variable {path : Path} {p q : Progress} {name : Text}

theorem exec_createFolder (path : Path) (p : Progress) : exec (createFolder path) p =
    match p.disk.createFolder path with
    | .ok d => (.ok (), { p with disk := d })
    | .error fault =>
      if p.disk.hasFolder path then (.ok (), p) else (.error ⟨[], .disk fault⟩, p) := by
  rw [createFolder, exec_bind_ok (exec_disk p)]
  cases p.disk.createFolder path with
  | ok d => exact exec_change rfl
  | error fault =>
    dsimp only
    rw [exec_bind_ok (exec_disk p)]
    split <;> rfl

theorem leads_createFolder (name : Text) (path : Path) :
    (createFolder path).Leads (GrowsBeside name) := by
  intro p
  rw [exec_createFolder]
  cases h : p.disk.createFolder path with
  | ok d =>
    obtain ⟨place, -, hnode, rfl⟩ := create_eq_ok_iff.1 h
    exact growsBeside_put_folder hnode
  | error fault =>
    dsimp only
    split
    · exact .refl name _
    · exact .refl name _

theorem hasFolder_of_exec_createFolder (h : exec (createFolder path) p = (.ok (), q)) :
    q.disk.hasFolder path = true := by
  rw [exec_createFolder] at h
  cases hcreate : p.disk.createFolder path with
  | ok d =>
    rw [hcreate] at h
    obtain rfl : { p with disk := d } = q := congrArg Prod.snd h
    rw [hasFolder, nodeAt?_of_create hcreate]
  | error fault =>
    rw [hcreate] at h
    dsimp only at h
    split at h
    · next hfolder =>
      obtain rfl : p = q := congrArg Prod.snd h
      exact hfolder
    · cases h

theorem exec_createFolder_of_hasFolder (h : p.disk.hasFolder path = true) :
    exec (createFolder path) p = (.ok (), p) := by
  rw [exec_createFolder, createFolder_eq, create_eq_taken_iff.2 (contains_of_hasFolder h)]
  simp only [h, if_true]

theorem leads_createInside (name : Text) (paths : List Path) :
    (createInside paths).Leads (GrowsBeside name) := by
  induction paths with
  | nil => exact .of_idle (.refl name) fun _ => rfl
  | cons path outer ih =>
    have hpath := leads_createFolder name path
    rw [createInside]
    refine Leads.bind_self .trans (.of_idle (.refl name) fun _ => rfl) fun d => ?_
    dsimp only
    split
    · exact ih.bind_self .trans fun _ => hpath
    · exact hpath

theorem leads_createFolders (name : Text) (path : Path) :
    (createFolders path).Leads (GrowsBeside name) := by
  rw [createFolders]
  split
  · exact .of_idle (.refl name) fun _ => rfl
  · exact leads_createInside name _

/-- The folder of a path is there, as far as the path asks for one. -/
structure FolderStands (path : Path) (d : Disk) : Prop where
  leads : pathFault? path = none
  folder : ∀ way ∈ (createFolders.ways path).head?, d.hasFolder way = true

theorem FolderStands.of_keeps {d e : Disk} (h : Keeps d e) (hpath : FolderStands path d) :
    FolderStands path e :=
  ⟨hpath.leads, fun way hway => h.hasFolder (hpath.folder way hway)⟩

theorem folderStands_of_exec (h : exec (createFolders path) p = (.ok (), q)) :
    FolderStands path q.disk := by
  rw [createFolders] at h
  split at h
  · exact nomatch h
  · next hfault =>
    refine ⟨hfault, fun way hway => ?_⟩
    cases hways : createFolders.ways path with
    | nil => simp [hways] at hway
    | cons first outer =>
      obtain rfl : first = way := by simpa [hways] using hway
      rw [hways, createInside] at h
      obtain ⟨d, m, -, h⟩ := exec_bind_eq_ok h
      dsimp only at h
      split at h
      · obtain ⟨u, m', -, h⟩ := exec_bind_eq_ok h
        exact hasFolder_of_exec_createFolder h
      · exact hasFolder_of_exec_createFolder h

theorem exec_createFolders_of_stands (h : FolderStands path p.disk) :
    exec (createFolders path) p = (.ok (), p) := by
  rw [createFolders]
  simp only [h.leads]
  cases hways : createFolders.ways path with
  | nil => rfl
  | cons first outer =>
    have hfirst := h.folder first (by rw [hways]; rfl)
    rw [createInside, exec_bind_ok (exec_disk p)]
    simp only [createFolder_eq, create_eq_taken_iff.2 (contains_of_hasFolder hfirst)]
    exact exec_createFolder_of_hasFolder hfirst

end Run

end IconCatalog
