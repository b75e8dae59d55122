import IconCatalog.Source.Expression
import IconCatalog.Source.Pattern
/-!
The search for declarations. A pattern counts only where a word may start and outside line comments,
so that a commented-out declaration is never taken for the live one; matches do not overlap.
-/
namespace IconCatalog.Source
open Text

structure Span where
  start : Nat
  stop : Nat
  deriving DecidableEq, Repr

/-- What the part of a line before a position says about it. -/
structure LineState where
  literal : Literal
  previous : Option Char
  commented : Bool
  deriving DecidableEq, Repr

namespace LineState

def start : LineState := ⟨.outside, none, false⟩

/-- Two slashes outside a literal open a comment; every line starts afresh. -/
def step (s : LineState) (c : Char) : LineState :=
  if c = '\n' then start
  else
    { literal := s.literal.step c
      previous := some c
      commented := s.commented || (s.literal = .outside && c = '/' && s.previous = some '/') }

def admits (s : LineState) : Bool := !s.commented && !s.previous.any isNameChar

end LineState

/-- The matches from a position on, where no match may start before `resume`. -/
def occurrencesFrom (p : Pattern) (s : LineState) (position resume : Nat) : Text → List Span
  | [] => []
  | c :: t =>
    match if resume ≤ position && s.admits then p (c :: t) else none with
    | none => occurrencesFrom p (s.step c) (position + 1) resume t
    | some rest =>
      let stop := position + ((c :: t).length - rest.length)
      ⟨position, stop⟩ :: occurrencesFrom p (s.step c) (position + 1) stop t

def occurrences (p : Pattern) (t : Text) : List Span := occurrencesFrom p .start 0 0 t

def firstOccurrence? (p : Pattern) (t : Text) : Option Span := (occurrences p t).head?

end IconCatalog.Source
