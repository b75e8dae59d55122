import IconCatalog.Text.Basic
/-!
Hosts that are addresses. One of version 4 has up to four numbers, in decimal, octal or hexadecimal;
the last one fills all the bytes that the others leave. One of version 6 has eight groups of 16
bits; a double colon stands for the groups left out, and the last two may be written as an address
of version 4.
-/
namespace IconCatalog.Url
open Text

def isPlain (c : Char) : Bool := c.toNat < 0x80

def digit? (c : Char) : Option Nat :=
  if c.isDigit then some (c.toNat - '0'.toNat)
  else if c.isLower then some (c.toNat - 'a'.toNat + 10)
  else if c.isUpper then some (c.toNat - 'A'.toNat + 10)
  else none

def valueIn? (base : Nat) (t : Text) : Option Nat :=
  t.foldlM (fun n c => do
    let d ← digit? c
    if d < base then some (n * base + d) else none) 0

namespace Address4

/-- A number with `0x` before it is hexadecimal, one with a leading zero octal. -/
def number? (t : Text) : Option Nat :=
  match t with
  | [] => none
  | ['0'] => some 0
  | '0' :: x :: r => if x = 'x' || x = 'X' then valueIn? 16 r else valueIn? 8 (x :: r)
  | _ => valueIn? 10 t

def parts (host : Text) : List Text :=
  let ps := host.splitOn '.'
  if ps.getLast? = some [] && ps.length > 1 then ps.dropLast else ps

/-- Whether a host has to be an address: its last part is a number or made of digits. -/
def isRequired (host : Text) : Bool :=
  match (parts host).getLast? with
  | none => false
  | some last => last ≠ [] && last.all Char.isDigit || (number? last).isSome

def value? (leading : List Nat) (last : Nat) : Option Nat :=
  let room := Nat.pow 256 (4 - leading.length)
  if leading.length ≤ 3 && leading.all (· ≤ 255) && last < room then
    some (leading.foldl (fun n b => n * 256 + b) 0 * room + last)
  else none

def read? (host : Text) : Option Nat := do
  let numbers ← (parts host).mapM number?
  let last ← numbers.getLast?
  value? numbers.dropLast last

def bytes (n : Nat) : List Nat := [n / 0x1000000, n / 0x10000 % 256, n / 0x100 % 256, n % 256]

def render (n : Nat) : Text := joined ".".toList ((bytes n).map ofNat)

end Address4

namespace Address6

def group? (t : Text) : Option Nat :=
  if t ≠ [] && t.length ≤ 4 then valueIn? 16 t else none

def byte? (t : Text) : Option Nat := do
  let n ← valueIn? 10 t
  if t ≠ [] && (t.length = 1 || t.head? ≠ some '0') && n ≤ 255 then some n else none

def dotted? (t : Text) : Option (List Nat) :=
  match (t.splitOn '.').mapM byte? with
  | some [a, b, c, d] => some [a * 256 + b, c * 256 + d]
  | _ => none

def ending? (t : Text) : Option (List Nat) :=
  if t.contains '.' then dotted? t else (group? t).map fun g => [g]

def groups? (parts : List Text) : Option (List Nat) := parts.mapM group?

def side? (t : Text) : Option (List Nat) :=
  if t = [] then some []
  else do
    let parts := t.splitOn ':'
    let init ← groups? parts.dropLast
    let last ← ending? (parts.getLastD [])
    return init ++ last

def cut? : Text → Option (Text × Text)
  | ':' :: ':' :: t => some ([], t)
  | [] => none
  | c :: t => (cut? t).map fun (before, behind) => (c :: before, behind)

def read? (t : Text) : Option (List Nat) :=
  match cut? t with
  | none => (side? t).filter (·.length = 8)
  | some (before, behind) => do
    let left ← if before = [] then some [] else groups? (before.splitOn ':')
    let right ← side? behind
    if left.length + right.length ≤ 7 then
      some (left ++ List.replicate (8 - left.length - right.length) 0 ++ right)
    else none

def zeroRuns : List Nat → List Nat
  | [] => []
  | g :: gs =>
    let runs := zeroRuns gs
    (if g = 0 then runs.headD 0 + 1 else 0) :: runs

/-- Lower-case groups with the first of the longest runs of zeros left out, if it is longer than
one. -/
def render (groups : List Nat) : Text :=
  let runs := zeroRuns groups
  let longest := runs.foldl max 0
  let show16 (gs : List Nat) := joined ":".toList (gs.map ofNatHex)
  if longest < 2 then show16 groups
  else
    let start := runs.idxOf longest
    show16 (groups.take start) ++ "::".toList ++ show16 (groups.drop (start + longest))

end Address6
end IconCatalog.Url
