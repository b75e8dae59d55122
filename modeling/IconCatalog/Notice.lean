import IconCatalog.Category
import IconCatalog.Disk.Path
/-!
Remarks that a run leaves on its way. They never change what is done.
-/
namespace IconCatalog
open Text

inductive Notice where
  | usedElsewhere (name : Text) (owner : Category) (path : Path)
  | alreadyThere (name : Text) (path : Path)
  | addedToTable (category : Category) (name : Text)
  | addedToEnum (category : Category) (name : Text)
  | ofOtherCategory (name : Text) (owner category : Category)
  | notThere (name : Text) (path : Path)
  | removedFromTable (category : Category) (name : Text)
  | removedFromEnum (category : Category) (name : Text)
  | unreadableSettings (path : Path)
  | unparsableSettings (path : Path)
  | insertedHelpers
  deriving DecidableEq

namespace Notice

def isWarning : Notice → Bool
  | usedElsewhere .. | alreadyThere .. | ofOtherCategory .. | notThere ..
  | unreadableSettings .. | unparsableSettings .. => true
  | addedToTable .. | addedToEnum .. | removedFromTable .. | removedFromEnum ..
  | insertedHelpers => false

/-- The wording, up to the point where the system or a library would take over. -/
def message : Notice → Text
  | usedElsewhere name owner path =>
    name ++ " already exists as a ".toList ++ owner.noun ++ " icon in ".toList ++ path.text ++
      ", skipping".toList
  | alreadyThere name path =>
    name ++ " already exists in ".toList ++ path.text ++ ", skipping".toList
  | addedToTable category name =>
    "added ".toList ++ category.noun ++ " icon ".toList ++ name ++ " to icon map".toList
  | addedToEnum category name => "added ".toList ++ name ++ " to ".toList ++ category.enumName
  | ofOtherCategory name owner category =>
    name ++ " is a ".toList ++ owner.noun ++ " icon, not a ".toList ++ category.noun ++
      " icon; not removed".toList
  | notThere name path => name ++ " not found in ".toList ++ path.text
  | removedFromTable category name =>
    "removed ".toList ++ category.noun ++ " icon ".toList ++ name ++ " from icon map".toList
  | removedFromEnum category name =>
    "removed ".toList ++ name ++ " from ".toList ++ category.enumName
  | unreadableSettings path =>
    "failed to read ".toList ++ path.text ++ ", using defaults".toList
  | unparsableSettings path =>
    "failed to parse ".toList ++ path.text ++ ", using defaults".toList
  | insertedHelpers => "no image helpers found, inserted them above iconMap".toList

end Notice
end IconCatalog
