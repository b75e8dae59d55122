import IconCatalog.RemotePattern.Config
/-!
Lines that several commands print. Paths inside the project are shown as seen from its root.
-/
namespace IconCatalog.Command
open Text

def arrow : Text := "->".toList
def check : Text := "✓".toList
def dot : Text := "·".toList
def mark : Text := "!".toList

def shown (root path : Path) : Text := (root.relativeTo path).text

def sayOutcome (root : Path) : RemotePattern.Outcome → Run Unit
  | .created path =>
    Run.say (check ++ " Created ".toList ++ shown root path ++
      " with the image host in images.remotePatterns".toList)
  | .alreadyListed path =>
    Run.say (dot ++ " Image host already present in ".toList ++ shown root path)
  | .patched path =>
    Run.say (check ++ " Added the image host to images.remotePatterns in ".toList ++
      shown root path)
  | .left path snippet => do
    Run.say (mark ++ " Could not update ".toList ++ shown root path ++
      " automatically. Add this to images.remotePatterns:".toList)
    Run.say ("  ".toList ++ snippet)

def permitHost (root : Path) (host : Text) (legacy : List Text) : Run Unit := do
  let outcome ← Run.within .permittingHost (RemotePattern.ensure root host legacy)
  sayOutcome root outcome

end IconCatalog.Command
