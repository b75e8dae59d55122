import IconCatalog.Text.Basic
import IconCatalog.Source.Token
/-!
Expressions are taken over as text: a scan finds the first stop character outside every literal and
every bracket. Literals are skipped whole, so that a comma or a brace in one ends nothing.
-/
namespace IconCatalog.Source
open Text

inductive Literal where
  | outside
  | inside (quote : Char)
  | escaped (quote : Char)
  deriving DecidableEq, Repr

namespace Literal

def isQuote (c : Char) : Bool := c = doubleQuote || c = singleQuote || c = backtick

def step : Literal → Char → Literal
  | outside, c => if isQuote c then inside c else outside
  | inside q, c => if c = '\\' then escaped q else if c = q then outside else inside q
  | escaped q, _ => inside q

end Literal

def opensBracket (c : Char) : Bool := c = '(' || c = '[' || c = '\x7b'

def closesBracket (c : Char) : Bool := c = ')' || c = ']' || c = '\x7d'

/-- Cuts a text at the first stop character outside literals and at bracket depth zero. Kinds of
brackets are not told apart; one that closes more than was opened ends the scan without a cut. -/
def cutAt? (stops : Char → Bool) : Literal → Nat → Text → Option (Text × Text)
  | _, _, [] => none
  | .outside, depth, c :: t =>
    if Literal.isQuote c then
      (cutAt? stops (.inside c) depth t).map fun (before, rest) => (c :: before, rest)
    else if depth = 0 && stops c then some ([], c :: t)
    else if opensBracket c then
      (cutAt? stops .outside (depth + 1) t).map fun (before, rest) => (c :: before, rest)
    else if closesBracket c then
      if depth = 0 then none
      else (cutAt? stops .outside (depth - 1) t).map fun (before, rest) => (c :: before, rest)
    else (cutAt? stops .outside depth t).map fun (before, rest) => (c :: before, rest)
  | literal, depth, c :: t =>
    (cutAt? stops (literal.step c) depth t).map fun (before, rest) => (c :: before, rest)

theorem append_of_cutAt? {stops : Char → Bool} {literal : Literal} {depth : Nat}
    {t before rest : Text} (h : cutAt? stops literal depth t = some (before, rest)) :
    t = before ++ rest := by
  induction t generalizing literal depth before with
  | nil => cases literal <;> simp [cutAt?] at h
  | cons c t ih =>
    have tail {l d b} (hc : (cutAt? stops l d t).map (fun (x, r) => (c :: x, r)) = some (b, rest)) :
        c :: t = b ++ rest := by
      obtain ⟨⟨x, r⟩, hx, heq⟩ := Option.map_eq_some_iff.1 hc
      obtain ⟨rfl, rfl⟩ := Prod.mk.inj heq
      rw [ih hx]; rfl
    cases literal with
    | outside =>
      simp only [cutAt?] at h
      split at h
      · exact tail h
      · split at h
        · simp only [Option.some.injEq, Prod.mk.injEq] at h
          obtain ⟨rfl, rfl⟩ := h; rfl
        · split at h
          · exact tail h
          · split at h
            · split at h
              · simp at h
              · exact tail h
            · exact tail h
    | inside q => exact tail h
    | escaped q => exact tail h

def endsExpression (c : Char) : Bool := c = ',' || c = '\x7d'

/-- The source text of an expression up to a comma or closing brace of its own level, blanks cut off
its end. There must be something other than blanks. -/
def expression? (t : Text) : Option (Text × Text) :=
  match cutAt? endsExpression .outside 0 t with
  | none => none
  | some (before, rest) => if isAllBlank before then none else some (trimEnd before, rest)

theorem length_of_expression? {t e r : Text} (h : expression? t = some (e, r)) :
    r.length ≤ t.length := by
  unfold expression? at h
  split at h
  · simp at h
  · next before rest hcut =>
    split at h
    · simp at h
    · obtain ⟨-, rfl⟩ := Prod.mk.inj (Option.some.inj h)
      simp [append_of_cutAt? hcut]

def statementLength? (t : Text) : Option Nat :=
  (cutAt? (· = ';') .outside 0 t).map fun (before, _) => before.length + 1

end IconCatalog.Source
