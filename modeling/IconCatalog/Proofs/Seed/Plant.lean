import IconCatalog.Seed.Plant
import IconCatalog.Proofs.Run.Folder
/-!
Planting only adds. It creates folders and files where nothing stands and touches nothing else; once
it has succeeded, every folder and every file is there, so planting again finds nothing to do.
-/
namespace IconCatalog
open Text Disk

namespace Seed
variable {target : Path} {o : Options} {p q : Progress} {file : Path × Text}

theorem exec_plantFile (planted : Planted) (file : Path × Text) (p : Progress) :
    Run.exec (plantFile planted file) p = match p.disk.createText file.1 file.2 with
      | .error .taken => (.ok { planted with kept := planted.kept ++ [file.1] }, p)
      | .error fault => (.error ⟨[], .disk fault⟩, p)
      | .ok d => (.ok { planted with created := planted.created ++ [file.1] },
          { p with disk := d }) := by
  rw [plantFile, Run.exec_bind_ok (Run.exec_disk p)]
  cases p.disk.createText file.1 file.2 with
  | ok d => rfl
  | error fault => cases fault <;> rfl

theorem leads_plantFile {name : Text} (planted : Planted) {file : Path × Text}
    (hfile : ∀ (d : Disk) (place : Place), d.locate file.1 = .ok place →
      place.getLast? ≠ some name) :
    (plantFile planted file).Leads (GrowsBeside name) := by
  intro p
  rw [exec_plantFile]
  split
  · exact .refl name _
  · exact .refl name _
  · next d h =>
    obtain ⟨place, hlocate, hnode, rfl⟩ := create_eq_ok_iff.1 h
    exact growsBeside_put_file hnode (hfile _ _ hlocate) _

theorem contains_of_exec_plantFile {planted planted' : Planted}
    (h : Run.exec (plantFile planted file) p = (.ok planted', q)) :
    q.disk.contains file.1 = true := by
  rw [exec_plantFile] at h
  split at h
  · next hcreate =>
    obtain rfl : p = q := congrArg Prod.snd h
    exact create_eq_taken_iff.1 hcreate
  · exact nomatch h
  · next d hcreate =>
    obtain rfl : { p with disk := d } = q := congrArg Prod.snd h
    rw [contains, nodeAt?_of_create hcreate]
    rfl

theorem exec_plantFile_of_contains (h : p.disk.contains file.1 = true) (planted : Planted) :
    Run.exec (plantFile planted file) p =
      (.ok { planted with kept := planted.kept ++ [file.1] }, p) := by
  rw [exec_plantFile, createText_eq, create_eq_taken_iff.2 h]

def sites (target : Path) : List (Path × Text) :=
  [(Site.constantsFolder target, "imagePaths.ts".toList),
    (Site.typesFolder target, "index.ts".toList)] ++
  Category.all.map (fun c => (Site.typesFolder target, c.enumName ++ ".ts".toList)) ++
  [(target, "CryptoIcon.tsx".toList), (target, "index.ts".toList)]

theorem paths_files (target : Path) (o : Options) :
    (files target o).map (·.1) = (sites target).map fun site => site.1.child site.2 := rfl

theorem isFileName_of_mem_sites {site : Path × Text} (h : site ∈ sites target) :
    IsFileName site.2 := by
  have hnames : ∀ name ∈ (sites ⟨[]⟩).map (·.2), IsFileName name := by decide
  exact hnames site.2 (List.mem_map_of_mem (f := (·.2)) h)

theorem getLast_of_mem_files {name : Text} (hname : ∀ site ∈ sites target, site.2 ≠ name)
    (hfile : file ∈ files target o) {d : Disk} {place : Place}
    (hlocate : d.locate file.1 = .ok place) : place.getLast? ≠ some name := by
  have hpath : file.1 ∈ (files target o).map (·.1) := List.mem_map_of_mem hfile
  rw [paths_files, List.mem_map] at hpath
  obtain ⟨site, hsite, hpath⟩ := hpath
  rw [← hpath] at hlocate
  rw [getLast_locate_child (isFileName_of_mem_sites hsite) hlocate]
  exact fun h => hname site hsite (Option.some.inj h)

theorem plant_eq (target : Path) (o : Options) : plant target o = (do
    (folders target).foldlM (fun _ folder => Run.createFolders folder) PUnit.unit
    (files target o).foldlM plantFile ⟨[], []⟩) := by
  rw [plant, Run.forIn_eq_foldlM]

theorem leads_plantFiles {name : Text} (hname : ∀ site ∈ sites target, site.2 ≠ name)
    (planted : Planted) : ∀ file ∈ files target o,
      (plantFile planted file).Leads (GrowsBeside name) :=
  fun _ hfile => leads_plantFile planted fun _ _ => getLast_of_mem_files hname hfile

/-- What stands before planting stays as it is, whether planting succeeds or not, and no file comes
but those of a target folder. -/
theorem leads_plant {name : Text} (hname : ∀ site ∈ sites target, site.2 ≠ name) (o : Options) :
    (plant target o).Leads (GrowsBeside name) := by
  rw [plant_eq]
  refine Run.Leads.bind_self .trans ?_ fun _ => ?_
  · exact Run.Leads.foldlM (.refl name) .trans
      (fun _ folder _ => Run.leads_createFolders name folder) _
  · exact Run.Leads.foldlM (.refl name) .trans (leads_plantFiles hname) _

/-- Everything that planting provides for is there. -/
structure IsComplete (target : Path) (o : Options) (d : Disk) : Prop where
  folders : ∀ folder ∈ folders target, Run.FolderStands folder d
  files : ∀ file ∈ files target o, d.contains file.1 = true

theorem IsComplete.of_keeps {d e : Disk} (h : Keeps d e) (hd : IsComplete target o d) :
    IsComplete target o e :=
  ⟨fun folder hfolder => (hd.folders folder hfolder).of_keeps h,
    fun file hfile => h.contains (hd.files file hfile)⟩

theorem isComplete_of_exec {planted : Planted}
    (h : Run.exec (plant target o) p = (.ok planted, q)) : IsComplete target o q.disk := by
  rw [plant_eq] at h
  obtain ⟨u, m, hfolders, hfiles⟩ := Run.exec_bind_eq_ok h
  -- no file has an empty name, so beside that name every disk only grows
  have hleads (planted : Planted) : ∀ file ∈ files target o,
      (plantFile planted file).Leads (GrowsBeside []) :=
    leads_plantFiles (fun _ hsite => (isFileName_of_mem_sites hsite).filled) planted
  have hlater := Run.Leads.foldlM (.refl []) .trans hleads ⟨[], []⟩ m
  rw [hfiles] at hlater
  have hall := Run.forall_of_exec_foldlM (P := Run.FolderStands) (.refl []) .trans
    (fun _ folder _ => Run.leads_createFolders [] folder)
    (fun h hfolder => hfolder.of_keeps h.grows.keeps) Run.folderStands_of_exec hfolders
  refine ⟨fun folder hfolder => (hall folder hfolder).of_keeps hlater.grows.keeps, ?_⟩
  exact Run.forall_of_exec_foldlM (P := fun (file : Path × Text) d => d.contains file.1 = true)
    (.refl []) .trans hleads (fun h => h.grows.keeps.contains) contains_of_exec_plantFile hfiles

theorem exec_plant_of_isComplete (h : IsComplete target o p.disk) :
    Run.exec (plant target o) p = (.ok ⟨[], (files target o).map (·.1)⟩, p) := by
  have hfolders := Run.exec_foldlM_idle (f := fun _ folder => Run.createFolders folder)
    (g := fun _ _ => PUnit.unit)
    (fun _ folder hfolder => Run.exec_createFolders_of_stands (h.folders folder hfolder)) PUnit.unit
  have hfiles := Run.exec_foldlM_idle
    (g := fun planted file => { planted with kept := planted.kept ++ [file.1] })
    (fun planted file hfile => exec_plantFile_of_contains (h.files file hfile) planted) ⟨[], []⟩
  rw [plant_eq, Run.exec_bind_ok hfolders, hfiles]
  rfl

end Seed
end IconCatalog
