import IconCatalog.CommandLine.Invocation
/-!
What one call of the tool leaves behind: an exit code, what goes to either output, and the disk.
-/
namespace IconCatalog.CommandLine
open Text

structure Response where
  exitCode : Nat
  /-- What goes to the standard output. -/
  printed : Text
  /-- The remarks that are shown beside it. -/
  notices : List Notice
  error? : Option Text
  disk : Disk

def version : Text := "crypto-next-icons 0.1.0\n".toList

def help : Text := [
  "Generate and maintain crypto icon lookup tables for web projects",
  "",
  "Usage: crypto-next-icons [-v] COMMAND",
  "",
  "Commands:",
  "  init    [-d DIR] [-f next|vite]            Create and seed the generated files",
  "  config  [-d DIR] [-i PATH] [-c CLASS] [-r] Change or reset the settings",
  "  add     [-t|-w|-s NAME...]... [-d DIR]     Add token, wallet or system icons",
  "  remove  [-t|-w|-s NAME...]... [-d DIR]     Remove token, wallet or system icons",
  "  update  [-d DIR]                           Point the image helpers at the hosted images",
  "  help    [COMMAND]                          Print this help"].flatMap fun line =>
    line.toList ++ ['\n']

def usageError : Text := "error: invalid arguments; try `crypto-next-icons --help`".toList

def respond (reader : WebAddress.Reader) (root : Path) (d : Disk) (words : List Text) : Response :=
  match read words with
  | .halt .usage => ⟨2, [], [], some usageError, d⟩
  | .halt .help => ⟨0, help, [], none, d⟩
  | .halt .version => ⟨0, version, [], none, d⟩
  | .run isVerbose command =>
    let shown (p : Progress) := p.notices.filter fun n => isVerbose || n.isWarning
    match ((command.run reader root).run (.start d)).run with
    | (.ok (), p) => ⟨0, p.printed, shown p, none, p.disk⟩
    | (.error f, p) => ⟨1, p.printed, shown p, some ("Error: ".toList ++ f.message), p.disk⟩

end IconCatalog.CommandLine
