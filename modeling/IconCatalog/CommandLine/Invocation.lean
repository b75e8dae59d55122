import IconCatalog.Command
import IconCatalog.CommandLine.Option
/-!
Command lines of the tool: which options each command has, and what a list of words asks for.
-/
namespace IconCatalog.CommandLine
open Text

inductive Invocation where
  | run (isVerbose : Bool) (command : Command)
  | halt (reason : Halt)
  deriving DecidableEq

def anyValue : Text → Bool := fun _ => true

def verbose : Opt := ⟨"verbose".toList, 'v', .flag, anyValue⟩

def dir : Opt := ⟨"dir".toList, 'd', .single, (· ≠ [])⟩

def token : Opt := ⟨"token".toList, 't', .several, anyValue⟩
def wallet : Opt := ⟨"wallet".toList, 'w', .several, anyValue⟩
def system : Opt := ⟨"system".toList, 's', .several, anyValue⟩

def framework? (name : Text) : Option Seed.Framework :=
  if name = "next".toList then some .next
  else if name = "vite".toList then some .vite
  else none

def framework : Opt := ⟨"framework".toList, 'f', .single, fun name => (framework? name).isSome⟩

def storedDir : Opt := ⟨"dir".toList, 'd', .single, anyValue⟩
def imagePath : Opt := ⟨"image-path".toList, 'i', .single, anyValue⟩
def darkModeClass : Opt := ⟨"dark-mode-class".toList, 'c', .single, anyValue⟩
def reset : Opt := ⟨"reset".toList, 'r', .flag, anyValue⟩

def readAll (opts : List Opt) (words : List Text) : Except Halt Reading :=
  match readOptions (verbose :: opts) false .start words with
  | .error reason => .error reason
  | .ok (r, []) => .ok r
  | .ok (_, _ :: _) => .error .usage

def Reading.value? (r : Reading) (o : Opt) : Option Text := (r.values o.long).head?

def Reading.path? (r : Reading) : Option Path := (r.value? dir).map Path.mk

abbrev Asked := Bool × Command

def Reading.asking (r : Reading) (command : Command) : Asked := (r.has verbose.long, command)

def readInit (words : List Text) : Except Halt Asked := do
  let r ← readAll [dir, framework] words
  return r.asking (.init r.path? (((r.value? framework).bind framework?).getD .next))

def readConfig (words : List Text) : Except Halt Asked := do
  let r ← readAll [storedDir, imagePath, darkModeClass, reset] words
  return r.asking <| .configure
    { directory := r.value? storedDir
      imageBase := r.value? imagePath
      darkClass := r.value? darkModeClass
      reset := r.has reset.long }

def readEdit (action : Action) (words : List Text) : Except Halt Asked := do
  let r ← readAll [token, wallet, system, dir] words
  return r.asking <| .edit action
    ⟨r.values token.long, r.values wallet.long, r.values system.long⟩ r.path?

def readUpdate (words : List Text) : Except Halt Asked := do
  let r ← readAll [dir] words
  return r.asking (.update r.path?)

def commandNames : List Text :=
  ["init", "config", "add", "remove", "update", "help"].map String.toList

def readHelp : List Text → Halt
  | [] => .help
  | [name] => if commandNames.contains name then .help else .usage
  | _ => .usage

def readCommand (name : Text) (words : List Text) : Except Halt Asked :=
  if name = "init".toList then readInit words
  else if name = "config".toList then readConfig words
  else if name = "add".toList then readEdit .add words
  else if name = "remove".toList then readEdit .remove words
  else if name = "update".toList then readUpdate words
  else if name = "help".toList then .error (readHelp words)
  else .error .usage

def read (words : List Text) : Invocation :=
  match readOptions [verbose] true .start words with
  | .error reason => .halt reason
  | .ok (_, []) => .halt .usage
  | .ok (r, name :: words) =>
    match readCommand name words with
    | .error reason => .halt reason
    | .ok (isVerbose, command) => .run (isVerbose || r.has verbose.long) command

end IconCatalog.CommandLine
