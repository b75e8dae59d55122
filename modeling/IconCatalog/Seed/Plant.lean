import IconCatalog.Enumeration.Basic
import IconCatalog.ImageHelper
import IconCatalog.Run
import IconCatalog.Seed.Template
/-!
The first files of a target folder, and putting them there. Later edits keep up to date a table file
with its image helpers and an enumeration for each category, which are empty at first. A file that
is there already is kept as it is, so planting twice only fills in what is missing.
-/
namespace IconCatalog.Seed
open Text

def tableSource (imageBase : Text) : Text :=
  tablePreamble ++ ImageHelper.definitions imageBase .lf ++ "\n".toList ++
    Table.emptyDeclaration .standard ++ "\n".toList

def enumSource (category : Category) : Text :=
  Enumeration.emptyDeclaration category .standard ++ "\n".toList

def componentSource (framework : Framework) (darkClass : Text) : Text :=
  fill (component framework) [(darkClassKey, darkClass)]

structure Options where
  framework : Framework
  imageBase : Text
  darkClass : Text

def folders (target : Path) : List Path :=
  Site.constantsFolder target :: Site.typesFolder target ::
    Category.all.map fun c => target.child c.folder

def files (target : Path) (o : Options) : List (Path × Text) :=
  [(Site.tablePath target, tableSource o.imageBase), (Site.typesIndexPath target, typesIndex)] ++
  Category.all.map (fun c => (Site.enumPath target c, enumSource c)) ++
  [(Site.componentPath target, componentSource o.framework o.darkClass),
    (Site.barrelPath target, barrelIndex)]

structure Planted where
  created : List Path
  kept : List Path

def isPlanted (target : Path) (d : Disk) : Bool := d.contains (Site.tablePath target)

def plantFile (planted : Planted) (file : Path × Text) : Run Planted := do
  match (← Run.disk).createText file.1 file.2 with
  | .error .taken => return { planted with kept := planted.kept ++ [file.1] }
  | .error fault => Run.fail (.disk fault)
  | .ok d =>
    Run.change fun _ => .ok d
    return { planted with created := planted.created ++ [file.1] }

def plant (target : Path) (o : Options) : Run Planted := do
  for folder in folders target do Run.createFolders folder
  (files target o).foldlM plantFile ⟨[], []⟩

end IconCatalog.Seed
