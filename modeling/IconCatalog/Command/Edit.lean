import IconCatalog.Command.Report
import IconCatalog.Edit
import IconCatalog.Settings.Store
/-!
The commands that add and remove icons. Names are edited one at a time, category by category, and a
failure keeps what was done before it.
-/
namespace IconCatalog
open Text

structure Selection where
  tokens : List Text
  wallets : List Text
  systems : List Text
  deriving DecidableEq, Repr

namespace Selection

def empty : Selection := ⟨[], [], []⟩

def names (s : Selection) : Category → List Text
  | .token => s.tokens
  | .wallet => s.wallets
  | .system => s.systems

def isEmpty (s : Selection) : Bool := s.tokens = [] && s.wallets = [] && s.systems = []

def groups (s : Selection) : List (Category × List Text) :=
  (Category.all.map fun c => (c, s.names c)).filter (·.2 ≠ [])

end Selection

namespace Command

structure Wording where
  verb : Text
  gerund : Text
  place : Text
  past : Text
  unchanged : Text

def wording : Action → Wording
  | .add =>
    { verb := "add".toList, gerund := "Adding".toList, place := " in ".toList
      past := "added".toList, unchanged := "unchanged".toList }
  | .remove =>
    { verb := "remove".toList, gerund := "Removing".toList, place := " from ".toList
      past := "removed".toList, unchanged := "not found".toList }

def editContext : Action → Category → Text → Context
  | .add => .adding
  | .remove => .removing

def sayUsage (verb : Text) : Run Unit := do
  let command := "  crypto-next-icons ".toList ++ verb
  Run.say "Usage examples:".toList
  Run.say (command ++ " --token BTC ETH".toList)
  Run.say (command ++ " --wallet MetaMask TrustWallet".toList)
  Run.say (command ++ " --system Ethereum Polygon".toList)

def editName (action : Action) (w : Workshop) (category : Category) (name : Text) : Run Bool := do
  let report ← Run.within (editContext action category name) (Edit.perform action w category name)
  if report.table = .applied then
    Run.say ("  ".toList ++ check ++ " ".toList ++ name)
    return true
  else
    Run.say ("  ".toList ++ dot ++ " ".toList ++ name ++ " (".toList ++
      (wording action).unchanged ++ ")".toList)
    return false

def editNames (action : Action) (w : Workshop) (category : Category) : List Text → Run Nat
  | [] => return 0
  | name :: names => do
    let changed ← editName action w category name
    let others ← editNames action w category names
    return (if changed then 1 else 0) + others

def editGroups (action : Action) (w : Workshop) : List (Category × List Text) → Run Nat
  | [] => return 0
  | (category, names) :: groups => do
    Run.say (arrow ++ " ".toList ++ (wording action).gerund ++ " ".toList ++ ofNat names.length ++
      " ".toList ++ category.noun ++ " icon(s)".toList)
    let changed ← editNames action w category names
    let others ← editGroups action w groups
    return changed + others

def editSelection (action : Action) (root : Path) (selection : Selection) (dir : Option Path) :
    Run Unit := do
  let settings ← Settings.load root
  let target := settings.target root dir
  let words := wording action
  if selection.isEmpty then
    Run.say (mark ++ " No icons specified to ".toList ++ words.verb ++ ".".toList)
    sayUsage words.verb
  else
    Run.say ("\n".toList ++ arrow ++ " ".toList ++ words.gerund ++ " crypto icons".toList ++
      words.place ++ shown root target ++ "\n".toList)
    let changed ← editGroups action ⟨target, .builtin⟩ selection.groups
    Run.say ("\n".toList ++ check ++ " ".toList ++ ofNat changed ++ " icon(s) ".toList ++
      words.past)

end Command
end IconCatalog
