import IconCatalog.Artwork
import IconCatalog.Sorted
import IconCatalog.Text.Order
/-!
The lookup table: entries from icon names to the expressions for light and dark mode, in one group
for each category. A name is used once in the whole table by every insertion, since the categories
share the keys.
-/
namespace IconCatalog
open Text

structure Entry where
  name : Text
  light : Text
  dark : Text
  deriving DecidableEq, Repr

namespace Entry

def atMost (e f : Entry) : Bool := Text.atMost e.name f.name

def call (category : Category) (argument : Text) : Text :=
  category.helper ++ "(\x22".toList ++ argument ++ "\x22)".toList

/-- The entry for a new icon. Split artwork has one file for each mode. -/
def ofIcon (category : Category) (name : Text) (artwork : Artwork) : Entry :=
  if artwork.isSplit category name then
    { name
      light := call category (name ++ "-lightmode".toList)
      dark := call category (name ++ "-darkmode".toList) }
  else ⟨name, call category name, call category name⟩

end Entry

structure Table where
  tokens : List Entry
  wallets : List Entry
  systems : List Entry
  deriving DecidableEq, Repr

namespace Table

def empty : Table := ⟨[], [], []⟩

def group (t : Table) : Category → List Entry
  | .token => t.tokens
  | .wallet => t.wallets
  | .system => t.systems

def setGroup (t : Table) (category : Category) (entries : List Entry) : Table :=
  match category with
  | .token => { t with tokens := entries }
  | .wallet => { t with wallets := entries }
  | .system => { t with systems := entries }

@[simp] theorem group_setGroup (t : Table) (c d : Category) (es : List Entry) :
    (t.setGroup c es).group d = if d = c then es else t.group d := by
  cases c <;> cases d <;> simp [setGroup, group]

theorem ext_group {s t : Table} (h : ∀ c, s.group c = t.group c) : s = t := by
  obtain ⟨a, b, c⟩ := s
  obtain ⟨a', b', c'⟩ := t
  have h1 := h .token
  have h2 := h .wallet
  have h3 := h .system
  simp only [group] at h1 h2 h3
  subst h1 h2 h3
  rfl

def size (t : Table) : Nat := t.tokens.length + t.wallets.length + t.systems.length

def isEmpty (t : Table) : Bool := t.size = 0

def holds (t : Table) (category : Category) (name : Text) : Bool :=
  (t.group category).any (·.name = name)

def find? (t : Table) (name : Text) : Option Category := Category.all.find? (t.holds · name)

theorem find?_eq_none_iff {t : Table} {name : Text} :
    t.find? name = none ↔ ∀ c, t.holds c name = false := by
  simp only [find?, List.find?_eq_none, Bool.not_eq_true]
  exact ⟨fun h c => h c (Category.mem_all c), fun h c _ => h c⟩

/-- Adds an entry to a group and sorts the group by name, unless the name is in use anywhere. -/
def insert (t : Table) (category : Category) (entry : Entry) : Table :=
  if (t.find? entry.name).isSome then t
  else t.setGroup category (sortBy Entry.atMost (t.group category ++ [entry]))

def erase (t : Table) (category : Category) (name : Text) : Table :=
  t.setGroup category ((t.group category).filter (·.name ≠ name))

def cons (t : Table) (category : Category) (entry : Entry) : Table :=
  t.setGroup category (entry :: t.group category)

end Table
end IconCatalog
