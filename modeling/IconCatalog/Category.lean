import IconCatalog.Disk.Path
/-!
The three kinds of icons, the words that the generated files use for each of them, and where these
files stand in the target folder of a project.
-/
namespace IconCatalog
open Text

inductive Category where
  | token
  | wallet
  | system
  deriving DecidableEq, Repr

namespace Category

def all : List Category := [token, wallet, system]

theorem mem_all (c : Category) : c ∈ all := by cases c <;> decide

def noun : Category → Text
  | token => "token".toList
  | wallet => "wallet".toList
  | system => "system".toList

def helper : Category → Text
  | token => "baseImgUrlToken".toList
  | wallet => "baseImgUrlWallet".toList
  | system => "baseImgUrlSystem".toList

def parameter : Category → Text
  | token => "nameToken".toList
  | wallet => "nameWallet".toList
  | system => "nameSystem".toList

def segment : Category → Text
  | token => "token".toList
  | wallet => "wallet".toList
  | system => "system".toList

def placeholder : Category → Text
  | token => "// Token icons will be added here".toList
  | wallet => "// Wallet icons will be added here".toList
  | system => "// System icons will be added here".toList

def enumName : Category → Text
  | token => "TokenSymbol".toList
  | wallet => "WalletName".toList
  | system => "SystemName".toList

def sample : Category → Text
  | token => "BTC".toList
  | wallet => "MetaMask".toList
  | system => "Ethereum".toList

def folder : Category → Text
  | token => "tokens".toList
  | wallet => "wallets".toList
  | system => "systems".toList

def calls (c : Category) (expression : Text) : Bool :=
  match after? c.helper (trimStart expression) with
  | none => false
  | some r => (trimStart r).head? = some '('

def ofExpression? (expression : Text) : Option Category := all.find? (·.calls expression)

end Category
namespace Site

def constantsFolder (target : Path) : Path := target.child "constants".toList

def typesFolder (target : Path) : Path := target.child "types".toList

def tablePath (target : Path) : Path := (constantsFolder target).child "imagePaths.ts".toList

def enumPath (target : Path) (category : Category) : Path :=
  (typesFolder target).child (category.enumName ++ ".ts".toList)

def typesIndexPath (target : Path) : Path := (typesFolder target).child "index.ts".toList

def componentPath (target : Path) : Path := target.child "CryptoIcon.tsx".toList

def barrelPath (target : Path) : Path := target.child "index.ts".toList

end Site
end IconCatalog
