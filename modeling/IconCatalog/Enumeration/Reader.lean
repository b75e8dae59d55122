import IconCatalog.Enumeration.Basic
/-!
Reading an enumeration. A member is `NAME = "VALUE"` with an optional comma; the name may be quoted,
and the value is passed over.
-/
namespace IconCatalog.Enumeration
open Text Source

def member? (t : Text) : Option (Text × Text) := do
  let (name, t) ← key? t
  let t ← char? '=' (skipGap t)
  let (_, t) ← quoted? (skipGap t)
  some (name, (char? ',' (skipGap t)).getD t)

theorem length_of_member? {t n r : Text} (h : member? t = some (n, r)) : r.length < t.length := by
  simp only [member?, Option.bind_eq_bind, Option.bind_eq_some_iff, Prod.exists,
    Option.some.injEq, Prod.mk.injEq] at h
  obtain ⟨name, t₁, h₁, t₂, h₂, value, t₃, h₃, -, rfl⟩ := h
  have := length_of_key? h₁
  have := length_of_char? h₂
  have := length_of_quoted? h₃
  have := length_skipGap_le t₁
  have := length_skipGap_le t₂
  cases h₄ : char? ',' (skipGap t₃) with
  | none => simp only [Option.getD_none]; omega
  | some u =>
    have := length_of_char? h₄
    have := length_skipGap_le t₃
    simp only [Option.getD_some]
    omega

def members : ItemReader Text := ⟨member?, length_of_member?⟩

def header (category : Category) : Pattern := .sequence
  [.word "export".toList, .space, .optional (.sequence [.word "const".toList, .space]),
    .word "enum".toList, .space, .word category.enumName, .gap, .char '\x7b']

def declaration (category : Category) : Declaration Text where
  name := category.enumName
  opening := "export enum ".toList ++ category.enumName ++ " \x7b".toList
  header := header category
  item := members

end IconCatalog.Enumeration
