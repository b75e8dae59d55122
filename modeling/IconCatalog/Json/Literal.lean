import IconCatalog.Text.Basic
/-!
String literals of JSON. A literal is read into its pieces, plain characters and 16-bit code units;
only reading its text pairs up the surrogates among the units, so a literal may well be valid and
have no text.
-/
namespace IconCatalog.Json
open Text

inductive Piece where
  | plain (c : Char)
  | codeUnit (n : Nat)
  deriving DecidableEq, Repr

def hexDigit? (c : Char) : Option Nat :=
  if '0' ≤ c && c ≤ '9' then some (c.toNat - '0'.toNat)
  else if 'a' ≤ c && c ≤ 'f' then some (c.toNat - 'a'.toNat + 10)
  else if 'A' ≤ c && c ≤ 'F' then some (c.toNat - 'A'.toNat + 10)
  else none

def escape? (c : Char) : Option Char :=
  if c = '\x22' then some '\x22'
  else if c = '\\' then some '\\'
  else if c = '/' then some '/'
  else if c = 'b' then some '\x08'
  else if c = 'f' then some '\x0c'
  else if c = 'n' then some '\n'
  else if c = 'r' then some '\r'
  else if c = 't' then some '\t'
  else none

def codeUnit? (a b c d : Char) : Option Nat := do
  return (((← hexDigit? a) * 16 + (← hexDigit? b)) * 16 + (← hexDigit? c)) * 16 + (← hexDigit? d)

/-- The pieces up to the closing quote, and what follows it. Control characters must be escaped. -/
def pieces? : Text → Option (List Piece × Text)
  | [] => none
  | '\x22' :: t => some ([], t)
  | '\\' :: 'u' :: a :: b :: c :: d :: t =>
    match codeUnit? a b c d, pieces? t with
    | some n, some (ps, rest) => some (.codeUnit n :: ps, rest)
    | _, _ => none
  | '\\' :: e :: t =>
    match escape? e, pieces? t with
    | some c, some (ps, rest) => some (.plain c :: ps, rest)
    | _, _ => none
  | c :: t =>
    if c.toNat < 0x20 || c = '\\' then none
    else
      match pieces? t with
      | some (ps, rest) => some (.plain c :: ps, rest)
      | none => none

theorem length_of_pieces? {t rest : Text} {ps : List Piece} (h : pieces? t = some (ps, rest)) :
    rest.length < t.length := by
  fun_induction pieces? t generalizing ps with
  | case1 => simp at h
  | case2 t => simp only [Option.some.injEq, Prod.mk.injEq] at h; simp [← h.2]
  | case3 a b c d t n ps' rest' hps _ ih =>
    simp only [Option.some.injEq, Prod.mk.injEq] at h
    obtain ⟨-, rfl⟩ := h
    have := ih hps
    simp only [List.length_cons]; omega
  | case4 => simp at h
  | case5 e t _ c ps' rest' hps _ ih =>
    simp only [Option.some.injEq, Prod.mk.injEq] at h
    obtain ⟨-, rfl⟩ := h
    have := ih hps
    simp only [List.length_cons]; omega
  | case6 => simp at h
  | case7 => simp at h
  | case8 c t _ _ _ _ ps' rest' hps ih =>
    simp only [Option.some.injEq, Prod.mk.injEq] at h
    obtain ⟨-, rfl⟩ := h
    have := ih hps
    simp only [List.length_cons]; omega
  | case9 => simp at h

def isHighSurrogate (n : Nat) : Bool := 0xD800 ≤ n && n ≤ 0xDBFF
def isLowSurrogate (n : Nat) : Bool := 0xDC00 ≤ n && n ≤ 0xDFFF

/-- The text of a literal. A surrogate without its partner has none. -/
def textOf? : List Piece → Option Text
  | [] => some []
  | .plain c :: ps => (textOf? ps).map (c :: ·)
  | .codeUnit n :: ps =>
    if isHighSurrogate n then
      match ps with
      | .codeUnit m :: ps =>
        if isLowSurrogate m then
          (textOf? ps).map (Char.ofNat (0x10000 + (n - 0xD800) * 0x400 + (m - 0xDC00)) :: ·)
        else none
      | _ => none
    else if isLowSurrogate n then none
    else (textOf? ps).map (Char.ofNat n :: ·)

def writeChar (c : Char) : Text :=
  if c = '\x22' then "\\\x22".toList
  else if c = '\\' then "\\\\".toList
  else if c = '\x08' then "\\b".toList
  else if c = '\x0c' then "\\f".toList
  else if c = '\n' then "\\n".toList
  else if c = '\r' then "\\r".toList
  else if c = '\t' then "\\t".toList
  else if c.toNat < 0x20 then
    "\\u00".toList ++ [Nat.digitChar (c.toNat / 16), Nat.digitChar (c.toNat % 16)]
  else [c]

def writeText (t : Text) : Text := '\x22' :: t.flatMap writeChar ++ ['\x22']

end IconCatalog.Json
