import IconCatalog.Text.Search
/-!
Options on a command line. A long option may have its value behind an equals sign, a short one may
have it attached, and flags may share one hyphen. An option without an attached value takes the
words that follow it, up to the next word that starts with a hyphen.
-/
namespace IconCatalog.CommandLine
open Text

inductive Arity where
  /-- No value; given at most once. -/
  | flag
  /-- One value; given at most once. -/
  | single
  /-- One value or more; may be given again. -/
  | several
  deriving DecidableEq, Repr

structure Opt where
  long : Text
  short : Char
  arity : Arity
  accepts : Text → Bool

inductive Halt where
  | usage
  | help
  | version
  deriving DecidableEq, Repr

/-- The options read so far with their values, the latest first, and the one that still takes
values. -/
structure Reading where
  given : List (Text × List Text)
  pending : Option (Opt × List Text)

namespace Reading

def start : Reading := ⟨[], none⟩

def has (r : Reading) (long : Text) : Bool := r.given.any (·.1 = long)

def values (r : Reading) (long : Text) : List Text :=
  (r.given.reverse.filter (·.1 = long)).flatMap (·.2)

def record (r : Reading) (o : Opt) (values : List Text) : Except Halt Reading :=
  if (o.arity ≠ .several && r.has o.long) || (o.arity ≠ .flag && values = []) ||
      !values.all o.accepts then .error .usage
  else .ok { r with given := (o.long, values) :: r.given }

def settle (r : Reading) : Except Halt Reading :=
  match r.pending with
  | none => .ok r
  | some (o, values) => { r with pending := none }.record o values

def await (r : Reading) (o : Opt) : Except Halt Reading := do
  return { ← r.settle with pending := some (o, []) }

def takeWord (r : Reading) (word : Text) : Except Halt Reading :=
  match r.pending with
  | none => .error .usage
  | some (o, values) =>
    let r := { r with pending := some (o, values ++ [word]) }
    if o.arity = .several then .ok r else r.settle

/-- Words that end the reading are known besides the options: help, and the version where there is
one. -/
def halt (r : Reading) (reason : Halt) : Except Halt Reading := do
  discard r.settle
  .error reason

def takeLong (opts : List Opt) (hasVersion : Bool) (r : Reading) (word : Text) :
    Except Halt Reading :=
  let name := word.takeWhile (· ≠ '=')
  let value? := after? ['='] (word.dropWhile (· ≠ '='))
  match opts.find? (·.long = name), value? with
  | some o, none =>
    if o.arity = .flag then do (← r.settle).record o [] else r.await o
  | some o, some value =>
    if o.arity = .flag then .error .usage else do (← r.settle).record o [value]
  | none, none =>
    if name = "help".toList then r.halt .help
    else if name = "version".toList && hasVersion then r.halt .version
    else .error .usage
  | none, some _ => .error .usage

/-- Short options behind one hyphen, up to the first one that takes a value. -/
def takeShort (opts : List Opt) (hasVersion : Bool) (r : Reading) : Text → Except Halt Reading
  | [] => .ok r
  | c :: word =>
    match opts.find? (·.short = c) with
    | some o =>
      if o.arity = .flag then do takeShort opts hasVersion (← (← r.settle).record o []) word
      else if word = [] then r.await o
      else do (← r.settle).record o [(after? ['='] word).getD word]
    | none =>
      if c = 'h' then r.halt .help
      else if c = 'V' && hasVersion then r.halt .version
      else .error .usage

end Reading

inductive Shape where
  | escape
  | long (word : Text)
  | short (word : Text)
  | plain
  deriving DecidableEq, Repr

def shape : Text → Shape
  | ['-', '-'] => .escape
  | '-' :: '-' :: word => .long word
  | ['-'] => .plain
  | '-' :: word => .short word
  | _ => .plain

/-- Reads options up to the end, or to the first word that belongs to none of them; that word and
what follows it are given back. Nothing may follow the word `--`. -/
def readOptions (opts : List Opt) (hasVersion : Bool) (r : Reading) :
    List Text → Except Halt (Reading × List Text)
  | [] => do return (← r.settle, [])
  | word :: words =>
    match shape word with
    | .escape => if words = [] then do return (← r.settle, []) else .error .usage
    | .long w => do readOptions opts hasVersion (← r.takeLong opts hasVersion w) words
    | .short w => do readOptions opts hasVersion (← r.takeShort opts hasVersion w) words
    | .plain =>
      if r.pending.isSome then do readOptions opts hasVersion (← r.takeWord word) words
      else .ok (r, word :: words)

end IconCatalog.CommandLine
