import IconCatalog.Disk.Path
import IconCatalog.Text.Basic
/-!
The stored settings of a project. A setting that is absent or blank counts as its default.
-/
namespace IconCatalog
open Text

structure Settings where
  directory : Option Text
  imageBase : Option Text
  darkClass : Option Text
  deriving DecidableEq, Repr

namespace Settings

def empty : Settings := ⟨none, none, none⟩

def defaultDirectory : Text := "./src/components/crypto-icons".toList
def defaultImageBase : Text := "/images/crypto".toList
def defaultDarkClass : Text := "dark".toList

def orDefault (stored : Option Text) (fallback : Text) : Text :=
  match stored with
  | some v => if isAllBlank v then fallback else v
  | none => fallback

/-- The target folder: an explicit one wins over the stored one, and that over the default. A
relative folder is taken from the project root. -/
def target (s : Settings) (root : Path) (explicit : Option Path) : Path :=
  (root.join (explicit.getD ⟨orDefault s.directory defaultDirectory⟩)).normalize

def imageBaseOrDefault (s : Settings) : Text := orDefault s.imageBase defaultImageBase

def darkClassOrDefault (s : Settings) : Text := orDefault s.darkClass defaultDarkClass

end Settings
end IconCatalog
