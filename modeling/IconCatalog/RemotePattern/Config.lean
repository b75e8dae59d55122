import IconCatalog.RemotePattern.Patch
import IconCatalog.Run
/-!
The `next.config` file of a project: the first of its possible names that is a file. A host counts
as listed when the text mentions it at all.
-/
namespace IconCatalog.RemotePattern
open Text

def fileNames : List Text :=
  ["next.config.js", "next.config.mjs", "next.config.cjs", "next.config.ts"].map String.toList

def freshPath (root : Path) : Path := root.child "next.config.js".toList

def find? (root : Path) (d : Disk) : Option Path := (fileNames.map root.child).find? d.hasFile

inductive Outcome where
  | created (path : Path)
  | alreadyListed (path : Path)
  | patched (path : Path)
  /-- The pattern has to be added by hand. -/
  | left (path : Path) (snippet : Text)
  deriving DecidableEq

def ensure (root : Path) (host : Text) (legacy : List Text) : Run Outcome := do
  match find? root (← Run.disk) with
  | none =>
    Run.change (·.writeText (freshPath root) (freshConfig host))
    return .created (freshPath root)
  | some path =>
    let t ← Run.look (·.readText path)
    if mentions host t then return .alreadyListed path
    match patch? t host legacy with
    | some patched =>
      Run.change (·.writeText path patched)
      return .patched path
    | none => return .left path (trim (entry host))

end IconCatalog.RemotePattern
