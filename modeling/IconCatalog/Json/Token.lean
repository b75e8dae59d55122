import IconCatalog.Json.Literal
/-!
Tokens of JSON. Two scalars never stand next to each other in a valid text, so cutting it into
tokens first accepts the same texts as reading it value by value.
-/
namespace IconCatalog.Json
open Text

inductive Token where
  | openObject
  | closeObject
  | openArray
  | closeArray
  | colon
  | comma
  | null
  | bool (b : Bool)
  | number (lexeme : Text)
  | string (pieces : List Piece)
  deriving DecidableEq, Repr

def isSpace (c : Char) : Bool := c = ' ' || c = '\n' || c = '\t' || c = '\r'

def digits? (t : Text) : Option (Text × Text) :=
  match t.takeWhile Char.isDigit with
  | [] => none
  | d :: ds => some (d :: ds, t.dropWhile Char.isDigit)

theorem length_of_digits? {t ds r : Text} (h : digits? t = some (ds, r)) : r.length < t.length := by
  unfold digits? at h
  split at h
  · simp at h
  · next d es hd =>
    obtain ⟨-, rfl⟩ := Prod.mk.inj (Option.some.inj h)
    have := congrArg List.length (List.takeWhile_append_dropWhile (p := Char.isDigit) (l := t))
    simp only [hd, List.length_append, List.length_cons] at this
    omega

def whole? (t : Text) : Option (Text × Text) :=
  match char? '0' t with
  | some r => some (['0'], r)
  | none => digits? t

theorem length_of_whole? {t w r : Text} (h : whole? t = some (w, r)) : r.length < t.length := by
  unfold whole? at h
  split at h
  · next u hu =>
    obtain ⟨-, rfl⟩ := Prod.mk.inj (Option.some.inj h)
    have := length_of_char? hu
    omega
  · exact length_of_digits? h

def fraction? (t : Text) : Option (Text × Text) :=
  match char? '.' t with
  | some r => (digits? r).map fun (ds, rest) => ('.' :: ds, rest)
  | none => some ([], t)

theorem length_of_fraction? {t f r : Text} (h : fraction? t = some (f, r)) :
    r.length ≤ t.length := by
  unfold fraction? at h
  split at h
  · next u hu =>
    obtain ⟨⟨ds, rest⟩, hd, heq⟩ := Option.map_eq_some_iff.1 h
    obtain ⟨-, rfl⟩ := Prod.mk.inj heq
    have := length_of_char? hu
    have := length_of_digits? hd
    omega
  · obtain ⟨-, rfl⟩ := Prod.mk.inj (Option.some.inj h)
    exact Nat.le_refl _

def sign (t : Text) : Text × Text :=
  match t with
  | [] => ([], [])
  | s :: r => if s = '+' || s = '-' then ([s], r) else ([], s :: r)

theorem length_sign_le (t : Text) : (sign t).2.length ≤ t.length := by
  unfold sign
  split
  · simp
  · split <;> simp

def exponent? (t : Text) : Option (Text × Text) :=
  match t with
  | [] => some ([], [])
  | e :: r =>
    if e = 'e' || e = 'E' then
      (digits? (sign r).2).map fun (ds, rest) => (e :: (sign r).1 ++ ds, rest)
    else some ([], e :: r)

theorem length_of_exponent? {t e r : Text} (h : exponent? t = some (e, r)) :
    r.length ≤ t.length := by
  unfold exponent? at h
  split at h
  · obtain ⟨-, rfl⟩ := Prod.mk.inj (Option.some.inj h)
    exact Nat.le_refl _
  · next c u =>
    split at h
    · obtain ⟨⟨ds, rest⟩, hd, heq⟩ := Option.map_eq_some_iff.1 h
      obtain ⟨-, rfl⟩ := Prod.mk.inj heq
      have := length_of_digits? hd
      have := length_sign_le u
      simp only [List.length_cons]
      omega
    · obtain ⟨-, rfl⟩ := Prod.mk.inj (Option.some.inj h)
      exact Nat.le_refl _

def unsigned? (t : Text) : Option (Text × Text) := do
  let (w, t) ← whole? t
  let (f, t) ← fraction? t
  let (e, t) ← exponent? t
  some (w ++ f ++ e, t)

theorem length_of_unsigned? {t n r : Text} (h : unsigned? t = some (n, r)) :
    r.length < t.length := by
  simp only [unsigned?, Option.bind_eq_bind, Option.bind_eq_some_iff, Prod.exists,
    Option.some.injEq, Prod.mk.injEq] at h
  obtain ⟨w, t₁, h₁, f, t₂, h₂, e, t₃, h₃, -, rfl⟩ := h
  have := length_of_whole? h₁
  have := length_of_fraction? h₂
  have := length_of_exponent? h₃
  omega

def number? (t : Text) : Option (Text × Text) :=
  match char? '-' t with
  | some r => (unsigned? r).map fun (n, rest) => ('-' :: n, rest)
  | none => unsigned? t

theorem length_of_number? {t n r : Text} (h : number? t = some (n, r)) : r.length < t.length := by
  unfold number? at h
  split at h
  · next u hu =>
    obtain ⟨⟨m, rest⟩, hm, heq⟩ := Option.map_eq_some_iff.1 h
    obtain ⟨-, rfl⟩ := Prod.mk.inj heq
    have := length_of_char? hu
    have := length_of_unsigned? hm
    omega
  · exact length_of_unsigned? h

def mark? (c : Char) : Option Token :=
  if c = '\x7b' then some .openObject
  else if c = '\x7d' then some .closeObject
  else if c = '[' then some .openArray
  else if c = ']' then some .closeArray
  else if c = ':' then some .colon
  else if c = ',' then some .comma
  else none

def word? (t : Text) : Option (Token × Text) :=
  ((after? "null".toList t).map (Token.null, ·)).or <|
    ((after? "true".toList t).map (Token.bool true, ·)).or <|
      (after? "false".toList t).map (Token.bool false, ·)

theorem length_of_word? {t r : Text} {k : Token} (h : word? t = some (k, r)) :
    r.length < t.length := by
  have shorter {w : Text} {l : Token} (hw : 0 < w.length)
      (h : (after? w t).map (l, ·) = some (k, r)) : r.length < t.length := by
    obtain ⟨u, hu, heq⟩ := Option.map_eq_some_iff.1 h
    obtain ⟨-, rfl⟩ := Prod.mk.inj heq
    have := length_of_after? hu
    omega
  simp only [word?, Option.or_eq_some_iff] at h
  rcases h with h | ⟨-, h | ⟨-, h⟩⟩
  · exact shorter (by decide) h
  · exact shorter (by decide) h
  · exact shorter (by decide) h

def token? (t : Text) : Option (Token × Text) :=
  match t with
  | [] => none
  | c :: r =>
    match mark? c with
    | some k => some (k, r)
    | none =>
      if c = '\x22' then (pieces? r).map fun (ps, rest) => (.string ps, rest)
      else (word? t).or ((number? t).map fun (n, rest) => (.number n, rest))

theorem length_of_token? {t r : Text} {k : Token} (h : token? t = some (k, r)) :
    r.length < t.length := by
  unfold token? at h
  split at h
  · simp at h
  · next c u =>
    split at h
    · obtain ⟨-, rfl⟩ := Prod.mk.inj (Option.some.inj h)
      simp
    · split at h
      · obtain ⟨⟨ps, rest⟩, hp, heq⟩ := Option.map_eq_some_iff.1 h
        obtain ⟨-, rfl⟩ := Prod.mk.inj heq
        have := length_of_pieces? hp
        simp only [List.length_cons]
        omega
      · rcases Option.or_eq_some_iff.1 h with h | ⟨-, h⟩
        · exact length_of_word? h
        · obtain ⟨⟨n, rest⟩, hn, heq⟩ := Option.map_eq_some_iff.1 h
          obtain ⟨-, rfl⟩ := Prod.mk.inj heq
          exact length_of_number? hn

def skipSpace (t : Text) : Text := t.dropWhile isSpace

def tokens? (t : Text) : Option (List Token) :=
  if skipSpace t = [] then some []
  else
    match _h : token? (skipSpace t) with
    | none => none
    | some (k, rest) => (tokens? rest).map (k :: ·)
  termination_by t.length
  decreasing_by exact Nat.lt_of_lt_of_le (length_of_token? _h) (length_dropWhile_le isSpace t)

end IconCatalog.Json
