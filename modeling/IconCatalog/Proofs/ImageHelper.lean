import IconCatalog.ImageHelper
import IconCatalog.Proofs.Source.Expression
import IconCatalog.Proofs.Source.Occurrence
import IconCatalog.Proofs.Sorted
/-!
The definitions of the image helpers, one to a line. Behind lines in which none of them starts, each
is found where it stands and ends with its line, so that pointing the helpers at another base
replaces the base in its definition and nothing else.
-/
namespace IconCatalog.ImageHelper
open Text Source

/-- A base that stands in one literal on one line, without the word that starts a definition. -/
structure IsAddress (base : Text) : Prop where
  quote : doubleQuote ∉ base
  backslash : '\\' ∉ base
  no_return : '\r' ∉ base
  no_feed : '\n' ∉ base
  word : ¬"export".toList <:+: base

def order : List (Option Category) := none :: Category.all.map some

def nameOf : Option Category → Text
  | none => baseName
  | some c => c.helper

def lineOf (base : Text) : Option Category → Text
  | none => baseDefinition base
  | some c => helperDefinition c

theorem definitions_eq (base : Text) (newline : Newline) :
    definitions base newline = order.flatMap (lineOf base · ++ newline.text) := by
  simp [definitions, order, lineOf, List.flatMap_map]

theorem replacements_eq (source base : Text) : replacements source base =
    sortBy (fun r s => r.span.start ≤ s.span.start)
      (order.filterMap fun o => replacementOf? source (nameOf o) (lineOf base o)) := by
  rw [replacements, order, List.filterMap_cons, List.filterMap_map]
  cases h : replacementOf? source (nameOf none) (lineOf base none) with
  | none =>
    rw [show replacementOf? source baseName (baseDefinition base) = none from h]
    rfl
  | some r =>
    rw [show replacementOf? source baseName (baseDefinition base) = some r from h]
    rfl

theorem baseDefinition_eq (base : Text) : baseDefinition base =
    "export const baseImgUrl = ".toList ++ doubleQuote :: (base ++ [doubleQuote, ';']) := by
  have hopen : "export const ".toList ++ baseName ++ " = \x22".toList =
      "export const baseImgUrl = ".toList ++ [doubleQuote] := by decide
  have hclose : "\x22;".toList = [doubleQuote, ';'] := by decide
  unfold baseDefinition
  rw [hopen, hclose]
  simp only [List.append_assoc, List.cons_append, List.nil_append]

theorem definitionOf_line (base rest : Text) (o : Option Category) :
    (definitionOf (nameOf o) (lineOf base o ++ rest)).isSome := by
  cases o with
  | none => rfl
  | some c => cases c <;> rfl

/-- No name is found in the definition of another one, though one of them starts the others. -/
theorem definitionOf_line_of_ne (base rest : Text) {m o : Option Category} (h : m ≠ o) :
    definitionOf (nameOf m) (lineOf base o ++ rest) = none := by
  cases m with
  | none =>
    cases o with
    | none => exact absurd rfl h
    | some c => cases c <;> rfl
  | some d =>
    cases o with
    | none => cases d <;> rfl
    | some c => cases c <;> cases d <;> first | rfl | exact absurd rfl h

theorem exists_line {base : Text} (h : IsAddress base) (o : Option Category) :
    ∃ x, lineOf base o = 'e' :: x ∧ ¬"export".toList <:+: x ++ ['\n'] := by
  cases o with
  | none =>
    have hquote : doubleQuote ∉ "export".toList := by decide
    have hopen : ¬"export".toList <:+: "xport const baseImgUrl = ".toList := by
      rw [← mentions_iff]
      decide
    have hclose : ¬"export".toList <:+: [';', '\n'] := by
      rw [← mentions_iff]
      decide
    have hfirst :
        "export const baseImgUrl = ".toList = 'e' :: "xport const baseImgUrl = ".toList := by
      decide
    refine ⟨_, by rw [lineOf, baseDefinition_eq, hfirst, List.cons_append], ?_⟩
    rw [show "xport const baseImgUrl = ".toList ++ doubleQuote :: (base ++ [doubleQuote, ';']) ++
      ['\n'] = "xport const baseImgUrl = ".toList ++ doubleQuote :: (base ++ doubleQuote ::
        [';', '\n']) by simp, infix_append_cons_iff hquote, infix_append_cons_iff hquote]
    exact fun hmem => hmem.elim hopen fun hmem => hmem.elim h.word hclose
  | some c =>
    refine ⟨(helperDefinition c).tail, by cases c <;> rfl, ?_⟩
    rw [← mentions_iff]
    cases c <;> decide +kernel

theorem isInert_line {base : Text} (h : IsAddress base) {p : Pattern}
    (hp : ∀ {t r}, p t = some r → "export".toList <+: t) {o : Option Category}
    (hfirst : ∀ rest, p (lineOf base o ++ rest) = none) : IsInert p (lineOf base o ++ ['\n']) := by
  obtain ⟨x, hx, hword⟩ := exists_line h o
  have hrest : IsInert p (x ++ ['\n']) :=
    isInert_of_no_word (c := '\n') hp hword (by simp) (by decide)
  intro u v huv hv rest
  cases u with
  | nil =>
    obtain rfl : lineOf base o ++ ['\n'] = v := huv
    rw [List.append_assoc]
    exact hfirst _
  | cons d u =>
    rw [hx] at huv
    exact hrest u v (List.cons.inj huv).2 hv rest

theorem isInert_definitions {base : Text} (h : IsAddress base) {p : Pattern}
    (hp : ∀ {t r}, p t = some r → "export".toList <+: t)
    (hfirst : ∀ o rest, p (lineOf base o ++ rest) = none) : IsInert p (definitions base .lf) := by
  have hall (os : List (Option Category)) : IsInert p (os.flatMap (lineOf base · ++ ['\n'])) := by
    induction os with
    | nil => exact isInert_nil
    | cons o os ih => exact (isInert_line h hp (hfirst o)).append ih
  rw [definitions_eq]
  exact hall order

def IsStatement (t : Text) : Prop :=
  '\n' ∉ t ∧ ∃ x, t = x ++ [';'] ∧ Passes (· = ';') .outside 0 x

theorem le_of_nextStatement? {t rest : Text} (ht : '\n' ∉ t) {n : Nat}
    (h : nextStatement? (t ++ rest) = some n) : t.length ≤ n := by
  induction t generalizing n with
  | nil => exact Nat.zero_le n
  | cons c t ih =>
    rw [List.mem_cons, not_or] at ht
    have hc : ¬(c = '\n' && (t ++ rest).head?.any (!isBlank ·)) = true := by
      simp [Ne.symm ht.1]
    rw [List.cons_append, nextStatement?, if_neg hc] at h
    obtain ⟨m, hm, rfl⟩ := Option.map_eq_some_iff.1 h
    exact Nat.succ_le_succ (ih ht.2 hm)

theorem definitionLength_append {t : Text} (h : IsStatement t) (rest : Text) :
    definitionLength (t ++ rest) = t.length := by
  obtain ⟨hfeed, x, rfl, hx⟩ := h
  have hcut : cutAt? (· = ';') .outside 0 (x ++ ([';'] ++ rest)) = some (x, [';'] ++ rest) :=
    cutAt?_of_passes hx ⟨';', rfl, by decide, by decide⟩
  have hlength : statementLength? (x ++ [';'] ++ rest) = some (x ++ [';']).length := by
    rw [List.append_assoc, statementLength?, hcut]
    simp
  have hnext : ¬(nextStatement? (x ++ [';'] ++ rest)).any (· < (x ++ [';']).length) = true := by
    cases hn : nextStatement? (x ++ [';'] ++ rest) with
    | none => simp
    | some n =>
      have hle := le_of_nextStatement? hfeed hn
      simpa using hle
  rw [definitionLength, hlength]
  simp only [if_neg hnext]

theorem isStatement_of_literal {lead base : Text} (hlead : ∀ c ∈ lead, IsNeutral (· = ';') c)
    (hline : '\n' ∉ lead) (hquote : doubleQuote ∉ base) (hbackslash : '\\' ∉ base)
    (hfeed : '\n' ∉ base) : IsStatement (lead ++ doubleQuote :: (base ++ [doubleQuote, ';'])) := by
  have hinside : ∀ c ∈ base, c ≠ '\\' ∧ c ≠ doubleQuote := fun c hc =>
    ⟨fun h => hbackslash (h ▸ hc), fun h => hquote (h ▸ hc)⟩
  have hclose : Passes (· = ';') (.inside doubleQuote) 0 [doubleQuote] := by
    simp [Passes, Literal.step, doubleQuote]
  have hliteral : Passes (· = ';') .outside 0 (doubleQuote :: (base ++ [doubleQuote])) := by
    have hrest : Passes (· = ';') (.inside doubleQuote) 0 (base ++ [doubleQuote]) :=
      (passes_inside hinside).2 hclose
    simpa [Passes, Literal.isQuote] using hrest
  refine ⟨?_, lead ++ doubleQuote :: (base ++ [doubleQuote]), by simp,
    (passes_neutral_append hlead).2 hliteral⟩
  simp [hline, hfeed, doubleQuote]

theorem exists_cut_helper (c : Category) : ∃ x,
    cutAt? (· = ';') .outside 0 (helperDefinition c) = some (x, [';']) := by
  refine ⟨(helperDefinition c).dropLast, ?_⟩
  cases c <;> decide +kernel

theorem isStatement_line {base : Text} (h : IsAddress base) (o : Option Category) :
    IsStatement (lineOf base o) := by
  cases o with
  | none =>
    rw [lineOf, baseDefinition_eq]
    have hlead : ∀ c ∈ "export const baseImgUrl = ".toList, IsNeutral (· = ';') c := by
      have hchars : ∀ c ∈ "export const baseImgUrl = ".toList, Literal.isQuote c = false ∧
          decide (c = ';') = false ∧ opensBracket c = false ∧ closesBracket c = false ∧
            c ≠ '\\' := forall_of_all (by decide)
      exact fun c hc => have ⟨hquote, hstop, hopen, hclose, hbackslash⟩ := hchars c hc
        ⟨hquote, hstop, hopen, hclose, hbackslash⟩
    exact isStatement_of_literal hlead (by decide) h.quote h.backslash h.no_feed
  | some c =>
    obtain ⟨x, hcut⟩ := exists_cut_helper c
    have hfeed : '\n' ∉ helperDefinition c := by cases c <;> decide
    exact ⟨hfeed, x, append_of_cutAt? hcut, (passes_of_cutAt? hcut).1⟩

theorem replacementOf?_append {name y t rest : Text} (new : Text)
    (hy : IsInert (definitionOf name) y) (hs : (y.foldl LineState.step .start).admits = true)
    (ht : IsStatement t) (hm : (definitionOf name (t ++ rest)).isSome) :
    replacementOf? (y ++ (t ++ rest)) name new = some ⟨⟨y.length, y.length + t.length⟩, new⟩ := by
  have hne : t ++ rest ≠ [] := by
    obtain ⟨-, x, rfl, -⟩ := ht
    simp
  obtain ⟨r, hr⟩ := Option.isSome_iff_exists.1 hm
  have hfirst := firstOccurrence?_of_match (hy.isSilentBefore .start _) hne hs hr
  rw [replacementOf?, hfirst, Option.map_some, List.drop_left, definitionLength_append ht]

def inRow : Nat → List (Text × Text) → List Replacement
  | _, [] => []
  | position, (old, new) :: ds =>
    ⟨⟨position, position + old.length⟩, new⟩ :: inRow (position + old.length + 1) ds

theorem le_start_of_mem_inRow {ds : List (Text × Text)} {position : Nat} {r : Replacement}
    (hr : r ∈ inRow position ds) : position ≤ r.span.start := by
  induction ds generalizing position with
  | nil => exact nomatch hr
  | cons d ds ih =>
    rw [inRow] at hr
    cases List.mem_cons.1 hr with
    | inl hr => exact hr ▸ Nat.le_refl position
    | inr hr =>
      have hle := ih hr
      omega

theorem length_inRow (position : Nat) (ds : List (Text × Text)) :
    (inRow position ds).length = ds.length := by
  induction ds generalizing position with
  | nil => rfl
  | cons d ds ih => rw [inRow, List.length_cons, ih, List.length_cons]

theorem pairwise_inRow (position : Nat) (ds : List (Text × Text)) :
    (inRow position ds).Pairwise fun r s => decide (r.span.start ≤ s.span.start) = true := by
  induction ds generalizing position with
  | nil => exact .nil
  | cons d ds ih =>
    refine List.pairwise_cons.2 ⟨fun r hr => decide_eq_true ?_, ih _⟩
    have hle := le_start_of_mem_inRow hr
    show position ≤ r.span.start
    omega

theorem splice_inRow (ds : List (Text × Text)) (y behind : Text) {position : Nat}
    (h : position ≤ y.length) :
    splice (y ++ (ds.flatMap (·.1 ++ ['\n']) ++ behind)) position (inRow y.length ds) =
      y.drop position ++ (ds.flatMap (·.2 ++ ['\n']) ++ behind) := by
  induction ds generalizing y position with
  | nil => simp [inRow, splice, List.drop_append_of_le_length h]
  | cons d ds ih =>
    obtain ⟨old, new⟩ := d
    have hposition : y.length + old.length ≤ (y ++ old ++ ['\n']).length := by simp
    have hrest := ih (y ++ old ++ ['\n']) hposition
    have hdrop : (y ++ old ++ ['\n']).drop (y.length + old.length) = ['\n'] := by
      rw [← List.length_append, List.drop_left]
    have hlength : (y ++ old ++ ['\n']).length = y.length + old.length + 1 := by
      simp [Nat.add_assoc]
    rw [hdrop, hlength] at hrest
    simp only [List.flatMap_cons, List.append_assoc] at hrest ⊢
    rw [inRow, splice, hrest, List.take_left]
    simp only [List.append_assoc]

theorem retarget_of_replacements {source new : Text} {rs : List Replacement}
    (h : replacements source new = rs) (hrs : rs ≠ []) :
    retarget source new = .ok (splice source 0 rs, rs.length) := by
  rw [retarget, h]
  cases rs with
  | nil => exact absurd rfl hrs
  | cons r rs => rfl

theorem definitionOf_starts {name t r : Text} (h : definitionOf name t = some r) :
    "export".toList <+: t :=
  Pattern.word_prefix_of_sequence h

theorem filterMap_replacementOf? {base : Text} (hbase : IsAddress base) (new behind : Text)
    {os : List (Option Category)} (hos : os.Nodup) {y : Text}
    (hy : ∀ o ∈ os, IsInert (definitionOf (nameOf o)) y)
    (hs : y.foldl LineState.step .start = .start) :
    os.filterMap (fun o => replacementOf?
        (y ++ (os.flatMap (lineOf base · ++ ['\n']) ++ behind)) (nameOf o) (lineOf new o)) =
      inRow y.length (os.map fun o => (lineOf base o, lineOf new o)) := by
  induction os generalizing y with
  | nil => rfl
  | cons o os ih =>
    obtain ⟨ho, hos⟩ := List.nodup_cons.1 hos
    have hnext : ∀ m ∈ os, IsInert (definitionOf (nameOf m)) (y ++ (lineOf base o ++ ['\n'])) :=
      fun m hm => (hy m (.tail o hm)).append <|
        isInert_line hbase definitionOf_starts fun rest =>
          definitionOf_line_of_ne base rest fun h => ho (h ▸ hm)
    have hrest := ih hos hnext (by rw [← List.append_assoc, foldl_step_newline])
    have hfirst := replacementOf?_append (lineOf new o) (hy o List.mem_cons_self)
      (by rw [hs]; rfl) (isStatement_line hbase o)
      (definitionOf_line base (['\n'] ++ (os.flatMap (lineOf base · ++ ['\n']) ++ behind)) o)
    have hlength : (y ++ (lineOf base o ++ ['\n'])).length =
        y.length + (lineOf base o).length + 1 := by
      simp [Nat.add_assoc]
    rw [hlength] at hrest
    simp only [List.flatMap_cons, List.append_assoc] at hrest hfirst ⊢
    rw [List.filterMap_cons, hfirst, hrest]
    rfl

/-- Behind lines without definitions, the base is replaced in its definition, and the other
definitions are written as they stand. -/
theorem retarget_definitions {base : Text} (hbase : IsAddress base) {y : Text}
    (hy : ∀ o, IsInert (definitionOf (nameOf o)) y) (hs : y.foldl LineState.step .start = .start)
    (new behind : Text) :
    retarget (y ++ (definitions base .lf ++ behind)) new =
      .ok (y ++ (definitions new .lf ++ behind), 4) := by
  have horder : order.Nodup := by decide
  have hfound := filterMap_replacementOf? hbase new behind horder (fun o _ => hy o) hs
  have hsplice := splice_inRow (order.map fun o => (lineOf base o, lineOf new o)) y behind
    (Nat.zero_le y.length)
  rw [List.flatMap_map, List.flatMap_map, List.drop_zero] at hsplice
  rw [definitions_eq, definitions_eq]
  have hall : replacements (y ++ (order.flatMap (lineOf base · ++ ['\n']) ++ behind)) new =
      inRow y.length (order.map fun o => (lineOf base o, lineOf new o)) := by
    rw [replacements_eq, hfound, sortBy_of_pairwise (pairwise_inRow _ _)]
  have hlength :
      (inRow y.length (order.map fun o => (lineOf base o, lineOf new o))).length = 4 := by
    rw [length_inRow, List.length_map]
    rfl
  rw [Newline.text, retarget_of_replacements hall (List.ne_nil_of_length_pos (by omega)), hsplice,
    hlength]

end IconCatalog.ImageHelper
