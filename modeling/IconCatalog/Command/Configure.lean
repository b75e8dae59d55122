import IconCatalog.Command.Report
import IconCatalog.Settings.Store
/-!
The command that changes the stored settings. A reset wins over values given beside it.
-/
namespace IconCatalog
open Text

structure SettingsChange where
  directory : Option Text
  imageBase : Option Text
  darkClass : Option Text
  reset : Bool
  deriving DecidableEq, Repr

namespace SettingsChange

def hasValue (c : SettingsChange) : Bool :=
  c.directory.isSome || c.imageBase.isSome || c.darkClass.isSome

def apply (c : SettingsChange) (s : Settings) : Settings where
  directory := c.directory.or s.directory
  imageBase := c.imageBase.or s.imageBase
  darkClass := c.darkClass.or s.darkClass

end SettingsChange

namespace Command

def saySettings (s : Settings) : Run Unit := do
  Run.say ("  directory:       ".toList ++ s.directory.getD "(default)".toList)
  Run.say ("  image base path: ".toList ++ s.imageBaseOrDefault)
  Run.say ("  dark mode class: ".toList ++ s.darkClassOrDefault)

def saveSettings (root : Path) (s : Settings) : Run Unit :=
  Run.within .savingSettings (s.save root)

/-- Without anything to change the values would have to be asked for, which needs a terminal. -/
def changeSettings (root : Path) (c : SettingsChange) : Run Unit := do
  if c.reset then
    saveSettings root .empty
    Run.say (check ++ " Configuration reset to defaults".toList)
  else
    let stored ← Settings.load root
    if c.hasValue then
      let settings := c.apply stored
      saveSettings root settings
      Run.say (check ++ " Configuration saved to ".toList ++ shown root (Settings.path root))
      saySettings settings
    else
      Run.say ("\n".toList ++ arrow ++ " Crypto Icons Configuration\n".toList)
      Run.fail .noTerminal

end Command
end IconCatalog
