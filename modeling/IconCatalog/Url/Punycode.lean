import IconCatalog.Url.Address
/-!
Text outside ASCII spelled in ASCII. The plain characters come first, up to the last hyphen; behind
it stand numbers of variable length, each of which inserts one more code point. Numbers have 32
bits.
-/
namespace IconCatalog.Url.Punycode
open Text

/-- Where a decoder stands: the next code point and position, and the number being read. -/
structure Decoder where
  codePoint : Nat
  index : Nat
  bias : Nat
  started : Nat
  weight : Nat
  threshold : Nat
  decoded : Text

def Decoder.start (plain : Text) : Decoder := ⟨128, 0, 72, 0, 1, 36, plain⟩

def Decoder.isAtEnd (d : Decoder) : Bool := d.weight = 1 && d.threshold = 36

def digit? (c : Char) : Option Nat :=
  if c.isDigit then some (c.toNat - '0'.toNat + 26) else (Url.digit? c).map (· - 10)

/-- How often a step is divided by 35 until it is at most 455, and what is left of it. -/
def scale (k : Nat) (delta : Nat) : Nat :=
  if _h : delta > 455 then scale (k + 36) (delta / 35) else k + 36 * delta / (delta + 38)
  termination_by delta
  decreasing_by omega

def adapt (delta points : Nat) (isFirst : Bool) : Nat :=
  let delta := if isFirst then delta / 700 else delta / 2
  scale 0 (delta + delta / points)

def bound : Nat := 0x100000000

def Decoder.step (d : Decoder) (c : Char) : Option Decoder := do
  let digit ← digit? c
  let index := d.index + digit * d.weight
  let limit := min 26 (max 1 (d.threshold - d.bias))
  let weight := d.weight * (36 - limit)
  if index ≥ bound then none
  else if digit ≥ limit then
    if weight ≥ bound then none
    else some { d with index := index, weight := weight, threshold := d.threshold + 36 }
  else
    let points := d.decoded.length + 1
    let codePoint := d.codePoint + index / points
    let position := index % points
    if codePoint.isValidChar then
      some {
        codePoint := codePoint
        index := position + 1
        bias := adapt (index - d.started) points (d.started = 0)
        started := position + 1
        weight := 1
        threshold := 36
        decoded := d.decoded.take position ++ Char.ofNat codePoint :: d.decoded.drop position }
    else none

/-- The plain part before the last hyphen and the digits behind it. A hyphen in front parts
nothing. -/
def parts (t : Text) : Text × Text :=
  let digits := (t.reverse.takeWhile (· ≠ '-')).reverse
  let plain := t.take (t.length - digits.length - 1)
  if plain = [] then ([], t) else (plain, digits)

def decode? (t : Text) : Option Text :=
  let (plain, digits) := parts t
  match digits.foldlM Decoder.step (.start plain) with
  | some d => if digits ≠ [] && d.isAtEnd then some d.decoded else none
  | none => none

def ofDigit (n : Nat) : Char := Char.ofNat (if n < 26 then 'a'.toNat + n else '0'.toNat + (n - 26))

def ofNumber (bias threshold n : Nat) : Text :=
  let limit := min 26 (max 1 (threshold - bias))
  if _h : n < limit then [ofDigit n]
  else
    ofDigit (limit + (n - limit) % (36 - limit)) ::
      ofNumber bias (threshold + 36) ((n - limit) / (36 - limit))
  termination_by n
  decreasing_by exact Nat.lt_of_le_of_lt (Nat.div_le_self _ _) (by omega)

/-- Where an encoder stands: how many positions were passed since the last number, the bias, how
many characters are spelled, and the spelling. -/
structure Encoder where
  passed : Nat
  bias : Nat
  done : Nat
  spelling : Text

def Encoder.spell (plain point : Nat) (e : Encoder) (t : Text) : Encoder :=
  t.foldl (fun e c =>
    if c.toNat < point then { e with passed := e.passed + 1 }
    else if c.toNat = point then
      { passed := 0
        bias := adapt e.passed (e.done + 1) (e.done = plain)
        done := e.done + 1
        spelling := e.spelling ++ ofNumber e.bias 36 e.passed }
    else e) e

def spellFrom (t : Text) (plain last : Nat) (e : Encoder) : List Nat → Encoder
  | [] => e
  | point :: points =>
    let e := { e with passed := e.passed + (point - last - 1) * (e.done + 1) }
    let e := e.spell plain point t
    spellFrom t plain point { e with passed := e.passed + 1 } points

def encode (t : Text) : Text :=
  let plain := t.filter isPlain
  let points := ((t.filter (!isPlain ·)).map Char.toNat).eraseDups.mergeSort
  let lead := if plain = [] then [] else plain ++ ['-']
  (spellFrom t plain.length 127 ⟨0, 72, plain.length, lead⟩ points).spelling

end IconCatalog.Url.Punycode
