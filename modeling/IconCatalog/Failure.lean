import IconCatalog.Disk.Basic
import IconCatalog.Source.Declaration
import IconCatalog.Category
import IconCatalog.Text.Shown
/-!
What can go wrong, told by its cause and by what was being done. The wording of every cause and
context is fixed here.
-/
namespace IconCatalog
open Text

namespace Source.Fault

def atLine (line : Nat) : Text := " at line ".toList ++ ofNat line

def message : Fault → Text
  | missing opening => "no `".toList ++ opening ++ "` declaration found".toList
  | repeated name line =>
    "more than one `".toList ++ name ++ "` declaration (another".toList ++ atLine line ++ ")".toList
  | unreadable name line => "could not read `".toList ++ name ++ "`".toList ++ atLine line
  | unclosed name => "`".toList ++ name ++ "` is never closed".toList
  | unexpected name line => "unexpected content in `".toList ++ name ++ "`".toList ++ atLine line
  | unknownHelper entry =>
    "entry \x22".toList ++ entry ++ "\x22 does not call ".toList ++ Category.token.helper ++
      ", ".toList ++ Category.wallet.helper ++ " or ".toList ++ Category.system.helper
  | noTable name => "no `".toList ++ name ++ "` declaration found".toList

end Source.Fault

def DiskFault.message : DiskFault → Text
  | missing => "No such file or directory (os error 2)".toList
  | notFolder => "Not a directory (os error 20)".toList
  | isFolder => "Is a directory (os error 21)".toList
  | taken => "File exists (os error 17)".toList
  | nameTooLong => "File name too long (os error 36)".toList
  | nulInPath => "file name contained an unexpected NUL byte".toList
  | notText => "stream did not contain valid UTF-8".toList

inductive Cause where
  /-- A generated file that an edit needs is not there yet. -/
  | missingFile (path : Path)
  /-- A generated file has lost its expected shape. -/
  | malformed (path : Path) (fault : Source.Fault)
  | invalidName (name : Text)
  | disk (fault : DiskFault)
  /-- A question was to be asked and nobody is there to answer it. -/
  | noTerminal
  deriving DecidableEq

namespace Cause

def message : Cause → Text
  | missingFile path => path.text ++ " not found. Run `crypto-next-icons init` first".toList
  | malformed path fault =>
    "unexpected structure in ".toList ++ path.text ++ ": ".toList ++ fault.message
  | invalidName name =>
    "invalid icon name ".toList ++ quoted name ++
      ": names may only contain letters, digits, `_` and `$`".toList
  | disk fault => fault.message
  | noTerminal => "IO error: not a terminal".toList

end Cause

inductive Context where
  | adding (category : Category) (name : Text)
  | removing (category : Category) (name : Text)
  | seeding (target : Path)
  | permittingHost
  | savingSettings
  | writing (path : Path)
  deriving DecidableEq

def Context.message : Context → Text
  | adding category name =>
    "Failed to add ".toList ++ category.noun ++ " icon ".toList ++ name
  | removing category name =>
    "Failed to remove ".toList ++ category.noun ++ " icon ".toList ++ name
  | seeding target => "Failed to scaffold ".toList ++ target.text
  | permittingHost => "Failed to update next.config".toList
  | savingSettings => "Failed to save config".toList
  | writing path => "Failed to write ".toList ++ path.text

/-- A cause under the contexts it was met in, the outermost first. -/
structure Failure where
  contexts : List Context
  cause : Cause
  deriving DecidableEq

namespace Failure

def circumstances (f : Failure) : List Text := f.contexts.map Context.message

def message (f : Failure) : Text := joined ": ".toList (f.circumstances ++ [f.cause.message])

end Failure
end IconCatalog
