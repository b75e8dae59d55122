/-!
Text as a sequence of characters, and the cuts that every reader is built from. Positions count
characters; the size in UTF-8 is a measure on top, for answers that are given in bytes.

A line ends at a line feed, and a carriage return right before the feed belongs to the line end.
Blank characters, which are trimmed off text, have the Unicode property White_Space; this is wider
than the layout that separates tokens in a source file.
-/
namespace IconCatalog

abbrev Text := List Char

namespace Text

def byteSize : Text → Nat
  | [] => 0
  | c :: t => c.utf8Size + byteSize t

/-- How many characters start within the first `bytes` bytes. -/
def charsWithin : Nat → Text → Nat
  | 0, _ => 0
  | _, [] => 0
  | bytes, c :: t => charsWithin (bytes - c.utf8Size) t + 1

def char? (c : Char) : Text → Option Text
  | [] => none
  | d :: t => if d = c then some t else none

theorem length_of_char? {c : Char} {t r : Text} (h : char? c t = some r) :
    t.length = r.length + 1 := by
  cases t with
  | nil => simp [char?] at h
  | cons d t => simp only [char?] at h; split at h <;> simp_all

def after? : Text → Text → Option Text
  | [], t => some t
  | _ :: _, [] => none
  | a :: lead, c :: t => if a = c then after? lead t else none

theorem after?_eq_some_iff {lead t rest : Text} :
    after? lead t = some rest ↔ t = lead ++ rest := by
  induction lead generalizing t with
  | nil => simp [after?, eq_comm]
  | cons a lead ih =>
    cases t with
    | nil => simp [after?]
    | cons c t =>
      by_cases h : a = c
      · subst h; simp [after?, ih]
      · simp [after?, h, Ne.symm h]

theorem length_of_after? {lead t rest : Text} (h : after? lead t = some rest) :
    t.length = lead.length + rest.length := by
  rw [after?_eq_some_iff.1 h, List.length_append]

def startsWith (t lead : Text) : Bool := (after? lead t).isSome

def dropEndWhile (p : Char → Bool) (t : Text) : Text := (t.reverse.dropWhile p).reverse

theorem length_dropWhile_le (p : Char → Bool) (t : Text) : (t.dropWhile p).length ≤ t.length :=
  (List.dropWhile_suffix p).length_le

def joined (separator : Text) : List Text → Text
  | [] => []
  | [t] => t
  | t :: ts => t ++ separator ++ joined separator ts

def ofNat (n : Nat) : Text := Nat.toDigits 10 n

def ofNatHex (n : Nat) : Text := Nat.toDigits 16 n

/-- The White_Space property. -/
def isBlank (c : Char) : Bool :=
  let n := c.toNat
  (9 ≤ n && n ≤ 13) || n = 0x20 || n = 0x85 || n = 0xA0 || n = 0x1680 ||
    (0x2000 ≤ n && n ≤ 0x200A) || n = 0x2028 || n = 0x2029 || n = 0x202F || n = 0x205F || n = 0x3000

def trimStart (t : Text) : Text := t.dropWhile isBlank

def trimEnd (t : Text) : Text := dropEndWhile isBlank t

def trim (t : Text) : Text := trimEnd (trimStart t)

def isAllBlank (t : Text) : Bool := t.all isBlank

def dropReturn (line : Text) : Text :=
  if line.getLast? = some '\r' then line.dropLast else line

/-- The lines of a text without their ends; what follows the last feed is a line if it is not
empty. -/
def lines (t : Text) : List Text :=
  let pieces := t.splitOn '\n'
  pieces.dropLast.map dropReturn ++ pieces.getLast?.toList.filter (· ≠ [])

def lineNumber (t : Text) (offset : Nat) : Nat := (t.take offset).count '\n' + 1

def firstLineLength (t : Text) : Nat := (dropReturn (t.takeWhile (· ≠ '\n'))).length

def inRange (first last : Nat) (c : Char) : Bool := first ≤ c.toNat && c.toNat ≤ last

def inRanges (ranges : List (Nat × Nat)) (c : Char) : Bool :=
  ranges.any fun (first, last) => inRange first last c

def valueOf? (ranges : List (Nat × Nat × α)) (c : Char) : Option α :=
  (ranges.find? fun (first, last, _) => inRange first last c).map (·.2.2)

end Text
end IconCatalog
