import IconCatalog.Command.Report
import IconCatalog.ImageHelper
import IconCatalog.Settings.Store
import IconCatalog.Category
/-!
The command that points the image helpers at the hosted images and lists their host. The lookup
table is left as it is.
-/
namespace IconCatalog.Command
open Text

def hostedBase : Text := "https://crypto-images-4545f.web.app/images".toList

def hostedHost : Text := "crypto-images-4545f.web.app".toList

def legacyHost : Text := "firebasestorage.googleapis.com".toList

def retarget (path : Path) (base : Text) : Run Unit := do
  let source ← Run.readGenerated path
  match ImageHelper.retarget source base with
  | .error fault => Run.fail (.malformed path fault)
  | .ok (updated, replaced) =>
    if updated ≠ source then Run.within (.writing path) (Run.change (·.writeText path updated))
    if replaced = 0 then Run.note .insertedHelpers

def pointAtHost (root : Path) (dir : Option Path) : Run Unit := do
  let settings ← Settings.load root
  let path := Site.tablePath (settings.target root dir)
  retarget path hostedBase
  Run.say (check ++ " Image helpers in ".toList ++ shown root path ++ " now point at ".toList ++
    hostedBase)
  permitHost root hostedHost [legacyHost]

end IconCatalog.Command
