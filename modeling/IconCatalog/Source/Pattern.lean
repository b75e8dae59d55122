import IconCatalog.Source.Token
/-!
Patterns recognise fixed phrases such as a declaration header, written as a list of steps. What a
pattern leaves is always a suffix of what it was given.
-/
namespace IconCatalog.Source
open Text

/-- A pattern gives what follows a match at the start of a text. -/
abbrev Pattern := Text → Option Text

namespace Pattern

def word (w : Text) : Pattern := after? w

def char (c : Char) : Pattern := char? c

def gap : Pattern := fun t => some (skipGap t)

def space : Pattern
  | [] => none
  | c :: t => if isGap c then some (skipGap t) else none

def name : Pattern := fun t => (name? t).map (·.2)

/-- A colon and at least one character up to the first one in `stops`. -/
def typeMark (stops : List Char) : Pattern := fun t =>
  match char? ':' t with
  | some (c :: r) => if stops.contains c then none else some (r.dropWhile (!stops.contains ·))
  | _ => none

def optional (p : Pattern) : Pattern := fun t => some ((p t).getD t)

def either (p q : Pattern) : Pattern := fun t => (p t).or (q t)

def sequence : List Pattern → Pattern
  | [], t => some t
  | p :: ps, t => (p t).bind (sequence ps)

end Pattern
end IconCatalog.Source
