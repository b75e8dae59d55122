import IconCatalog.Command.Configure
import IconCatalog.Command.Edit
import IconCatalog.Command.Init
import IconCatalog.Command.Update
/-!
The commands of the tool with what each of them is given.
-/
namespace IconCatalog

inductive Command where
  | init (dir : Option Path) (framework : Seed.Framework)
  | configure (change : SettingsChange)
  | edit (action : Action) (selection : Selection) (dir : Option Path)
  | update (dir : Option Path)
  deriving DecidableEq

namespace Command

def run (reader : WebAddress.Reader) (root : Path) : Command → Run Unit
  | init dir framework => prepare reader root dir framework
  | configure change => changeSettings root change
  | edit action selection dir => editSelection action root selection dir
  | update dir => pointAtHost root dir

/-- The paths besides the settings file that a command may look at or write, under the settings of
the project. -/
def reach (root : Path) (settings : Settings) : Command → List Path
  | init dir framework =>
    let target := settings.target root dir
    Seed.folders target ++ (Seed.files target ⟨framework, [], []⟩).map (·.1) ++
      RemotePattern.fileNames.map root.child
  | configure _ => []
  | edit _ _ dir =>
    let target := settings.target root dir
    Site.tablePath target :: Category.all.map (Site.enumPath target)
  | update dir =>
    Site.tablePath (settings.target root dir) :: RemotePattern.fileNames.map root.child

end Command

end IconCatalog
