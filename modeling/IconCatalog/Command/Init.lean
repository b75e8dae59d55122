import IconCatalog.Command.Report
import IconCatalog.Seed.Plant
import IconCatalog.Settings.Store
/-!
The command that prepares a project: it plants the first files, and for images on another host it
lists that host in the configuration of the framework that asks for it. How a web address is read is
not laid down here: the command takes the reader as a parameter, and whoever runs it gives one.
-/
namespace IconCatalog

structure WebAddress where
  scheme : Text
  host? : Option Text
  deriving DecidableEq, Repr

namespace WebAddress

/-- Gives nothing for a text that is no absolute address. -/
abbrev Reader := Text → Option WebAddress

/-- The host of an address that is fetched over the web. -/
def remoteHost? (read : Reader) (address : Text) : Option Text := do
  let url ← read address
  if url.scheme = "http".toList || url.scheme = "https".toList then url.host? else none

end WebAddress

namespace Command
open Text

def sayNextSteps (importPath : Text) : Run Unit := do
  Run.say ("\n".toList ++ check ++ " Crypto icons initialized!".toList)
  Run.say "\nNext steps:".toList
  Run.say "  1. Configure default settings (optional): crypto-next-icons config".toList
  Run.say "  2. Add some icons: crypto-next-icons add --token BTC ETH".toList
  Run.say "  3. Import and use in your components:".toList
  Run.say ("     import \x7b CryptoIcon \x7d from \x22./".toList ++ importPath ++ "\x22".toList)
  Run.say "     <CryptoIcon name=\x22BTC\x22 size=\x7b32\x7d />".toList

def prepare (reader : WebAddress.Reader) (root : Path) (dir : Option Path)
    (framework : Seed.Framework) : Run Unit := do
  Run.say ("\n".toList ++ arrow ++ " Initializing crypto icons...\n".toList)
  let settings ← Settings.load root
  let target := settings.target root dir
  if Seed.isPlanted target (← Run.disk) then
    Run.say (mark ++ " ".toList ++ shown root target ++
      " is already initialized; existing files are kept".toList)
  let planted ← Run.within (.seeding target)
    (Seed.plant target ⟨framework, settings.imageBaseOrDefault, settings.darkClassOrDefault⟩)
  for path in planted.created do
    Run.say ("  ".toList ++ check ++ " Created ".toList ++ shown root path)
  for path in planted.kept do
    Run.say ("  ".toList ++ dot ++ " Kept ".toList ++ shown root path)
  if framework = .next then
    if let some host := WebAddress.remoteHost? reader settings.imageBaseOrDefault then
      permitHost root host []
  sayNextSteps (shown root target)

end Command
end IconCatalog
