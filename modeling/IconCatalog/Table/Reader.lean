import IconCatalog.Source.Declaration
import IconCatalog.Table.Basic
/-!
Reading the lookup table. An entry is `key: { lightMode: EXPR, darkMode: EXPR }` with layout between
all tokens and an optional comma after the second expression and after the closing brace.
-/
namespace IconCatalog.Table
open Text Source

def declaredName : Text := "iconMap".toList

def lightLabel : Text := "lightMode".toList
def darkLabel : Text := "darkMode".toList

def skipComma (t : Text) : Text := (char? ',' (skipGap t)).getD t

theorem length_skipComma_le (t : Text) : (skipComma t).length ≤ t.length := by
  unfold skipComma
  cases h : char? ',' (skipGap t) with
  | none => simp
  | some r =>
    have := length_of_char? h
    have := length_skipGap_le t
    simp only [Option.getD_some]
    omega

def field? (label t : Text) : Option (Text × Text) := do
  let t ← after? label (skipGap t)
  let t ← char? ':' (skipGap t)
  expression? (skipGap t)

theorem length_of_field? {label t e r : Text} (h : field? label t = some (e, r)) :
    r.length ≤ t.length := by
  simp only [field?, Option.bind_eq_bind, Option.bind_eq_some_iff] at h
  obtain ⟨u, hu, v, hv, he⟩ := h
  have := length_of_after? hu
  have := length_of_char? hv
  have := length_of_expression? he
  have := length_skipGap_le t
  have := length_skipGap_le u
  have := length_skipGap_le v
  omega

def expressions? (t : Text) : Option ((Text × Text) × Text) := do
  let t ← char? ':' (skipGap t)
  let t ← char? '\x7b' (skipGap t)
  let (light, t) ← field? lightLabel t
  let t ← char? ',' (skipGap t)
  let (dark, t) ← field? darkLabel t
  let t ← char? '\x7d' (skipGap (skipComma t))
  some ((light, dark), skipComma t)

theorem length_of_expressions? {t r : Text} {es : Text × Text}
    (h : expressions? t = some (es, r)) : r.length ≤ t.length := by
  simp only [expressions?, Option.bind_eq_bind, Option.bind_eq_some_iff, Prod.exists,
    Option.some.injEq, Prod.mk.injEq] at h
  obtain ⟨t₁, h₁, t₂, h₂, light, t₃, h₃, t₄, h₄, dark, t₅, h₅, t₆, h₆, -, rfl⟩ := h
  have := length_of_char? h₁
  have := length_of_char? h₂
  have := length_of_field? h₃
  have := length_of_char? h₄
  have := length_of_field? h₅
  have := length_of_char? h₆
  have := length_skipGap_le t
  have := length_skipGap_le t₁
  have := length_skipGap_le t₃
  have := length_skipGap_le (skipComma t₅)
  have := length_skipComma_le t₅
  have := length_skipComma_le t₆
  omega

def entryAt? (t : Text) : Option (Entry × Text) := do
  let (name, t) ← key? t
  let ((light, dark), t) ← expressions? t
  some (⟨name, light, dark⟩, t)

theorem length_of_entryAt? {t r : Text} {e : Entry} (h : entryAt? t = some (e, r)) :
    r.length < t.length := by
  simp only [entryAt?, Option.bind_eq_bind, Option.bind_eq_some_iff, Prod.exists,
    Option.some.injEq, Prod.mk.injEq] at h
  obtain ⟨name, t₁, h₁, light, dark, t₂, h₂, -, rfl⟩ := h
  have := length_of_key? h₁
  have := length_of_expressions? h₂
  omega

def entries : ItemReader Entry := ⟨entryAt?, length_of_entryAt?⟩

def header : Pattern := .sequence
  [.word "export".toList, .space, .word "const".toList, .space, .word declaredName, .gap,
    .optional (.typeMark ['=', ';', '\x7b']), .char '=', .gap, .char '\x7b']

def declaration : Declaration Entry where
  name := declaredName
  opening := "export const iconMap = \x7b".toList
  header := header
  item := entries

/-- Groups entries by the helper that the light expression calls, in their order. -/
def ofEntries : List Entry → Except Fault Table
  | [] => .ok empty
  | e :: es =>
    match Category.ofExpression? e.light with
    | none => .error (.unknownHelper e.name)
    | some category => (ofEntries es).map (·.cons category e)

end IconCatalog.Table
