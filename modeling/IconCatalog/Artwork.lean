import IconCatalog.Category
/-!
Names whose artwork comes in separate files for light and dark mode. Every other name shows one file
in both modes.
-/
namespace IconCatalog

structure Artwork where
  tokens : List Text
  wallets : List Text
  systems : List Text
  deriving DecidableEq, Repr

namespace Artwork

def empty : Artwork := ⟨[], [], []⟩

def builtin : Artwork where
  tokens := ["ALGO", "APT", "NEAR", "SUI", "WLD", "XRP"].map String.toList
  wallets := ["Ledger", "OKX", "Rabby"].map String.toList
  systems := ["Aptos", "Jito", "Near", "Sui", "Uniswap"].map String.toList

def names (a : Artwork) : Category → List Text
  | .token => a.tokens
  | .wallet => a.wallets
  | .system => a.systems

def insert (a : Artwork) (category : Category) (name : Text) : Artwork :=
  match category with
  | .token => { a with tokens := a.tokens ++ [name] }
  | .wallet => { a with wallets := a.wallets ++ [name] }
  | .system => { a with systems := a.systems ++ [name] }

def isSplit (a : Artwork) (category : Category) (name : Text) : Bool :=
  (a.names category).contains name

theorem names_insert (a : Artwork) (c d : Category) (name : Text) :
    (a.insert c name).names d = if d = c then a.names d ++ [name] else a.names d := by
  cases c <;> cases d <;> simp [insert, names]

end Artwork
end IconCatalog
