import IconCatalog.Text.Basic
/-!
Occurrences of one text in another: whether there is one, and the replacement of all of them, taken
from the left and without overlap.
-/
namespace IconCatalog.Text

def mentions (needle : Text) : Text → Bool
  | [] => needle.isEmpty
  | c :: t => startsWith (c :: t) needle || mentions needle t

theorem mentions_iff {needle t : Text} : mentions needle t = true ↔ needle <:+: t := by
  induction t with
  | nil => simp [mentions]
  | cons c t ih =>
    have hstart : startsWith (c :: t) needle = true ↔ needle <+: c :: t := by
      simp only [startsWith, Option.isSome_iff_exists, after?_eq_some_iff]
      exact ⟨fun ⟨r, h⟩ => ⟨r, h.symm⟩, fun ⟨r, h⟩ => ⟨r, h.symm⟩⟩
    rw [mentions, Bool.or_eq_true, hstart, ih, List.infix_cons_iff]

/-- Every occurrence of `old` replaced by `new`. The empty text occurs before each character and at
the end. -/
def replaceAll (old new : Text) : Text → Text
  | [] => if old = [] then new else []
  | c :: t =>
    match _h : after? old (c :: t) with
    | none => c :: replaceAll old new t
    | some rest =>
      if _hold : old = [] then new ++ c :: replaceAll old new t else new ++ replaceAll old new rest
  termination_by t => t.length
  decreasing_by
    · simp
    · simp
    · have := length_of_after? _h
      have := List.length_pos_iff.2 _hold
      omega

end IconCatalog.Text
