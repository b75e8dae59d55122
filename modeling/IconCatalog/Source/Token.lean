import IconCatalog.Text.Basic
/-!
Tokens of a generated source file: layout, line comments, quoted literals and names. A reader gives
the token and what follows it; each token takes up at least one character.
-/
namespace IconCatalog.Source
open Text

def doubleQuote : Char := '\x22'
def singleQuote : Char := '\x27'
def backtick : Char := '\x60'

def isGap (c : Char) : Bool := c = ' ' || c = '\t' || c = '\r' || c = '\n'

def skipGap (t : Text) : Text := t.dropWhile isGap

theorem length_skipGap_le (t : Text) : (skipGap t).length ≤ t.length := length_dropWhile_le _ t

def commentMark : Text := "//".toList

def isLineEnd (c : Char) : Bool := c = '\r' || c = '\n'

/-- Whether a comment may stop here: at a line feed, at a carriage return with its line feed, or at
the end of the text. -/
def atLineEnd : Text → Bool
  | [] => true
  | '\n' :: _ => true
  | '\r' :: '\n' :: _ => true
  | _ => false

def skipLine (t : Text) : Text := t.dropWhile (!isLineEnd ·)

/-- A comment runs to the end of its line. One that meets a lone carriage return is none. -/
def comment? (t : Text) : Option (Text × Text) :=
  match after? commentMark t with
  | none => none
  | some r =>
    if atLineEnd (skipLine r) then some (r.takeWhile (!isLineEnd ·), skipLine r) else none

theorem length_of_comment? {t c r : Text} (h : comment? t = some (c, r)) :
    r.length < t.length := by
  unfold comment? at h
  split at h
  · simp at h
  · next u hu =>
    have hle : (skipLine u).length ≤ u.length := length_dropWhile_le _ u
    have hlen := length_of_after? hu
    have hmark : commentMark.length = 2 := rfl
    split at h
    · obtain ⟨-, rfl⟩ := Prod.mk.inj (Option.some.inj h); omega
    · simp at h

/-- Where a text that is no comment goes wrong: at its start, or behind the mark. -/
def commentFault (t : Text) : Text := (after? commentMark t).getD t

def isInside (quote c : Char) : Bool := c ≠ quote && c ≠ '\n'

/-- A literal between two `quote` characters on one line. A backslash has no meaning in it. -/
def quotedBy? (quote : Char) (t : Text) : Option (Text × Text) :=
  match char? quote t with
  | none => none
  | some r =>
    match char? quote (r.dropWhile (isInside quote)) with
    | none => none
    | some rest => some (r.takeWhile (isInside quote), rest)

def quoted? (t : Text) : Option (Text × Text) :=
  match quotedBy? doubleQuote t with
  | some found => some found
  | none => quotedBy? singleQuote t

theorem length_of_quotedBy? {q : Char} {t k r : Text} (h : quotedBy? q t = some (k, r)) :
    r.length < t.length := by
  unfold quotedBy? at h
  split at h
  · simp at h
  · next u hu =>
    split at h
    · simp at h
    · next v hv =>
      obtain ⟨-, rfl⟩ := Prod.mk.inj (Option.some.inj h)
      have := length_of_char? hu
      have := length_of_char? hv
      have := length_dropWhile_le (isInside q) u
      omega

theorem length_of_quoted? {t k r : Text} (h : quoted? t = some (k, r)) : r.length < t.length := by
  unfold quoted? at h
  split at h
  · next found hf => obtain rfl := Option.some.inj h; exact length_of_quotedBy? hf
  · exact length_of_quotedBy? h

/-- Where a text that is no literal goes wrong: where the closing single quote was due, or else at
its start. -/
def quotedFault (t : Text) : Text :=
  match char? singleQuote t with
  | some r => r.dropWhile (isInside singleQuote)
  | none => t

def isNameChar (c : Char) : Bool := c.isAlphanum || c = '_' || c = '$'

def isIdentifier : Text → Bool
  | [] => false
  | c :: t => !c.isDigit && isNameChar c && t.all isNameChar

def name? (t : Text) : Option (Text × Text) :=
  match t.takeWhile isNameChar with
  | [] => none
  | c :: n => some (c :: n, t.dropWhile isNameChar)

theorem length_of_name? {t n r : Text} (h : name? t = some (n, r)) : r.length < t.length := by
  unfold name? at h
  split at h
  · simp at h
  · next c m hm =>
    obtain ⟨-, rfl⟩ := Prod.mk.inj (Option.some.inj h)
    have := congrArg List.length (List.takeWhile_append_dropWhile (p := isNameChar) (l := t))
    simp only [hm, List.length_append, List.length_cons] at this
    omega

def key? (t : Text) : Option (Text × Text) :=
  match quoted? t with
  | some found => some found
  | none => name? t

theorem length_of_key? {t k r : Text} (h : key? t = some (k, r)) : r.length < t.length := by
  unfold key? at h
  split at h
  · next found hf => obtain rfl := Option.some.inj h; exact length_of_quoted? hf
  · exact length_of_name? h

end IconCatalog.Source
