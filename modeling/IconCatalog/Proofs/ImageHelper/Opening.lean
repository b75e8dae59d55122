import IconCatalog.Proofs.ImageHelper
import IconCatalog.Proofs.Table.Header
/-!
The openings of definitions. A definition opens with its words and runs up to the first equals sign,
so that whether one starts does not depend on what stands behind that sign.
-/
namespace IconCatalog.ImageHelper
open Text Source Pattern
variable {o m : Option Category}

def endsType : List Char := ['=', ';']

/-- What stands in front of the equals sign of a definition. -/
inductive IsOpening (name : Text) : Text → Prop where
  | mk : IsSpace v → IsSpace w → IsGap x → y = [] ∨ IsTypeMark endsType y →
      IsOpening name ("export".toList ++ v ++ "const".toList ++ w ++ name ++ x ++ y)

theorem exists_nameOf (o : Option Category) : ∃ c n, nameOf o = c :: n ∧ isGap c = false := by
  cases o with
  | none => exact ⟨_, _, rfl, by decide⟩
  | some c => cases c <;> exact ⟨_, _, rfl, by decide⟩

theorem definitionOf_append {u : Text} (h : IsOpening (nameOf o) u) (rest : Text) :
    definitionOf (nameOf o) (u ++ '=' :: rest) = some rest := by
  cases h with
  | @mk v w x y hv hw hx hy =>
    obtain ⟨c, n, hname, hc⟩ := exists_nameOf o
    have hmark : optional (typeMark endsType) (skipGap (y ++ '=' :: rest)) =
        some ('=' :: rest) := by
      cases hy with
      | inl h =>
        subst h
        rfl
      | inr hy =>
        obtain ⟨z, hz, -, -⟩ := id hy
        have hskip : skipGap (y ++ '=' :: rest) = y ++ '=' :: rest := by
          rw [hz]
          exact skipGap_cons (by decide) _
        rw [hskip]
        exact optional_eq_some_iff.2 (.inl (typeMark_append hy (by decide) _))
    have hword : word (nameOf o) (skipGap (nameOf o ++ (x ++ (y ++ '=' :: rest)))) =
        some (x ++ (y ++ '=' :: rest)) := by
      rw [hname]
      exact word_skipGap hc n _
    have hequals : char '=' ('=' :: rest) = some rest := char?_cons_self ..
    rw [← skipGap_append hx] at hmark
    simp only [definitionOf, sequence_cons_eq_some_iff, List.append_assoc]
    exact ⟨_, after?_append .., _, space_append hv _, _, word_skipGap (by decide) "onst".toList _,
      _, space_append hw _, _, hword, _, rfl, _, hmark, _, hequals, rfl⟩

theorem exists_opening {name t r : Text} (h : definitionOf name t = some r) :
    ∃ u, IsOpening name u ∧ t = u ++ '=' :: r := by
  simp only [definitionOf, sequence_cons_eq_some_iff] at h
  obtain ⟨t₁, h₁, t₂, h₂, t₃, h₃, t₄, h₄, t₅, h₅, t₆, h₆, t₇, h₇, t₈, h₈, hr⟩ := h
  obtain ⟨v, hv, rfl⟩ := exists_space h₂
  obtain ⟨w, hw, rfl⟩ := exists_space h₄
  obtain ⟨x, hx, ht₅⟩ := exists_gap t₅
  obtain rfl : skipGap t₅ = t₆ := Option.some.inj h₆
  obtain rfl : t₈ = r := Option.some.inj hr
  have hy : ∃ y, (y = [] ∨ IsTypeMark endsType y) ∧ skipGap t₅ = y ++ t₇ := by
    rcases optional_eq_some_iff.1 h₇ with h₇ | ⟨-, h₇⟩
    · obtain ⟨y, hy, ht⟩ := exists_typeMark h₇
      exact ⟨y, .inr hy, ht⟩
    · exact ⟨[], .inl rfl, h₇⟩
  obtain ⟨y, hy, ht₆⟩ := hy
  refine ⟨_, .mk hv hw hx hy, ?_⟩
  rw [after?_eq_some_iff.1 h₁, after?_eq_some_iff.1 h₃, after?_eq_some_iff.1 h₅, ht₅, ht₆,
    char?_eq_some_iff.1 h₈]
  simp

def named (name : Text) : Pattern :=
  .sequence [.word name, .gap, .optional (.typeMark endsType), .char '=']

theorem definitionOf_eq_bind (name t : Text) : definitionOf name t =
    (sequence [.word "export".toList, .space, .word "const".toList, .space] t).bind
      (named name) := by
  simp only [definitionOf, named, Pattern.sequence, Option.bind_assoc]
  rfl

theorem named_of_ne {c : Category} (h : m ≠ some c) (t : Text) :
    named (nameOf m) (nameOf (some c) ++ t) = none := by
  cases m with
  | none => cases c <;> rfl
  | some d => cases c <;> cases d <;> first | rfl | exact absurd rfl h

theorem eq_of_definitionOf {t : Text} (ho : (definitionOf (nameOf o) t).isSome)
    (hm : (definitionOf (nameOf m) t).isSome) : o = m := by
  rw [definitionOf_eq_bind, Option.isSome_bind, Option.any_eq_true] at ho hm
  obtain ⟨u, hu, ho⟩ := ho
  obtain ⟨u', hu', hm⟩ := hm
  obtain rfl : u = u' := Option.some.inj (hu.symm.trans hu')
  have hstarts {o : Option Category} (h : (named (nameOf o) u).isSome) :
      ∃ x, u = nameOf o ++ x := by
    obtain ⟨r, hr⟩ := Option.isSome_iff_exists.1 h
    obtain ⟨x, hx⟩ := word_prefix_of_sequence hr
    exact ⟨x, hx.symm⟩
  refine Decidable.byContradiction fun hne => ?_
  cases o with
  | some c =>
    obtain ⟨x, rfl⟩ := hstarts ho
    rw [named_of_ne (Ne.symm hne) x] at hm
    exact nomatch hm
  | none =>
    cases m with
    | none => exact hne rfl
    | some c =>
      obtain ⟨x, rfl⟩ := hstarts hm
      rw [named_of_ne hne x] at ho
      exact nomatch ho

/-- A text that starts with `export` and goes on to an equals sign within a statement. -/
def Opens (t : Text) : Prop :=
  ∃ u r, t = u ++ '=' :: r ∧ "export".toList <+: u ∧ '=' ∉ u ∧ ';' ∉ u

theorem Opens.ne_nil {t : Text} (h : Opens t) : t ≠ [] := by
  obtain ⟨u, r, rfl, -⟩ := h
  simp

theorem IsOpening.no_stop {name u : Text} (h : IsOpening name u) {c : Char} (hc : c ∈ endsType)
    (hname : c ∉ name) : c ∉ u := by
  have hplain : c ∉ "export".toList ∧ c ∉ "const".toList ∧ isGap c = false := by
    simp only [endsType, List.mem_cons, List.not_mem_nil, or_false] at hc
    rcases hc with rfl | rfl <;> decide
  obtain ⟨hexport, hconst, hgap⟩ := hplain
  cases h with
  | @mk v w x y hv hw hx hy =>
    have hmark : c ∉ y := by
      rcases hy with rfl | ⟨z, rfl, -, hz⟩
      · simp
      · intro hmem
        cases List.mem_cons.1 hmem with
        | inl h =>
          subst h
          exact absurd hc (by decide)
        | inr h =>
          have hnot := hz c h
          simp [hc] at hnot
    simp only [List.mem_append, not_or]
    exact ⟨⟨⟨⟨⟨⟨hexport, not_mem_of_isGap hv.2 hgap⟩, hconst⟩, not_mem_of_isGap hw.2 hgap⟩, hname⟩,
      not_mem_of_isGap hx hgap⟩, hmark⟩

theorem not_mem_nameOf (o : Option Category) : ∀ c ∈ endsType, c ∉ nameOf o := by
  rcases o with _ | _ | _ | _ <;> exact forall_of_all (by decide)

theorem IsOpening.opens {name u : Text} (h : IsOpening name u) (hname : ∀ c ∈ endsType, c ∉ name)
    (r : Text) : Opens (u ++ '=' :: r) := by
  refine ⟨u, r, rfl, ?_, h.no_stop (by decide) (hname _ (by decide)),
    h.no_stop (by decide) (hname _ (by decide))⟩
  cases h with
  | mk => simp only [List.append_assoc, List.prefix_append]

theorem opens_of_definitionOf {t r : Text} (h : definitionOf (nameOf o) t = some r) : Opens t := by
  obtain ⟨u, hu, rfl⟩ := exists_opening h
  exact hu.opens (not_mem_nameOf o) r

theorem opens_line (base : Text) (o : Option Category) (rest : Text) :
    Opens (lineOf base o ++ rest) := by
  obtain ⟨r, hr⟩ := Option.isSome_iff_exists.1 (definitionOf_line base rest o)
  exact opens_of_definitionOf hr

theorem opens_of_header {t r : Text} (h : Table.header t = some r) : Opens t := by
  obtain ⟨u, hu, rfl⟩ := Table.exists_heading h
  cases hu with
  | @mk v w a m b hv hw ha hm =>
    have hmark : m = [] ∨ IsTypeMark endsType m := hm.imp id fun ⟨x, hx, hne, hplain⟩ =>
      ⟨x, hx, hne, fun c hc => by
        have hc := hplain c hc
        simp [Table.endsType] at hc
        simp [endsType, hc]⟩
    have hopening : IsOpening Table.declaredName _ := .mk hv hw ha hmark
    have hopens := hopening.opens (forall_of_all (by decide)) (b ++ '\x7b' :: r)
    simpa only [List.append_assoc, List.cons_append] using hopens

theorem infix_append_gap {k a w b : Text} (hk : ∀ c ∈ k, isGap c = false) (hw : IsSpace w)
    (h : k <:+: a ++ (w ++ b)) : k <:+: a ∨ k <:+: b := by
  obtain ⟨hne, hgap⟩ := hw
  induction w generalizing a with
  | nil => exact absurd rfl hne
  | cons c w ih =>
    have hc : c ∉ k := fun hmem => by
      have := hk c hmem
      rw [hgap c List.mem_cons_self] at this
      exact absurd this (by simp)
    cases (infix_append_cons_iff hc).1 h with
    | inl h => exact .inl h
    | inr h =>
      cases w with
      | nil => exact .inr h
      | cons d w =>
        have hrest := @ih [] h (List.cons_ne_nil d w) fun e he => hgap e (.tail c he)
        exact hrest.imp (fun h => h.trans List.nil_infix) id

theorem not_infix_words {v w x : Text} (hv : IsSpace v) (hw : IsSpace w) (hx : IsGap x) :
    ¬"export".toList <:+: "xport".toList ++ (v ++ ("const".toList ++ (w ++ (nameOf o ++ x)))) := by
  have hk : ∀ c ∈ "export".toList, isGap c = false := forall_of_all (by decide)
  have hplain : ¬"export".toList <:+: nameOf o := by
    rw [← mentions_iff]
    rcases o with _ | _ | _ | _ <;> decide
  intro h
  rcases infix_append_gap hk hv h with h | h
  · exact absurd (mentions_iff.2 h) (by decide)
  rcases infix_append_gap hk hw h with h | h
  · exact absurd (mentions_iff.2 h) (by decide)
  by_cases hne : x = []
  · rw [hne, List.append_nil] at h
    exact hplain h
  · rw [← List.append_nil x] at h
    cases infix_append_gap hk ⟨hne, hx⟩ h with
    | inl h => exact hplain h
    | inr h => exact absurd (List.infix_nil.1 h) (by decide)

/-- Whether an opening goes on into a text that opens with a declaration itself does not depend on
which declaration that is: it can only reach there with its type. -/
theorem IsOpening.replace {v h h' : Text} (hopen : IsOpening (nameOf o) (v ++ h)) (hv : v ≠ [])
    (hh : "export".toList <+: h) (hne : h' ≠ []) (hequals : '=' ∉ h') (hend : ';' ∉ h') :
    IsOpening (nameOf o) (v ++ h') := by
  generalize hu : v ++ h = u at hopen
  cases hopen with
  | @mk a b x y ha hb hx hy =>
    have hstart (t : Text) (ht : h = t ++ y) : "export".toList <+: t := by
      obtain ⟨more, hmore⟩ := hh
      rw [ht] at hmore
      rcases List.append_eq_append_iff.1 hmore with ⟨k, hk, -⟩ | ⟨k, hk, hy'⟩
      · exact ⟨k, hk.symm⟩
      · -- a type starts with a colon, which is no letter of the word
        rcases hy with rfl | ⟨z, rfl, -⟩
        · rw [(List.append_eq_nil_iff.1 hy'.symm).1, List.append_nil] at hk
          exact ⟨[], by rw [List.append_nil, hk]⟩
        · cases k with
          | nil => exact ⟨[], by simpa using hk⟩
          | cons c k =>
            obtain ⟨rfl, -⟩ := List.cons.inj hy'
            have hmem : ':' ∈ "export".toList := by rw [hk]; simp
            exact absurd hmem (by decide)
    rcases List.append_eq_append_iff.1 hu with ⟨t, hlead, ht⟩ | ⟨t, hlead, ht⟩
    · -- the other declaration would start amid the words of this one
      cases v with
      | nil => exact absurd rfl hv
      | cons c v =>
        have htail := congrArg List.tail hlead
        have hwords := not_infix_words (o := o) ha hb hx
        refine absurd ?_ hwords
        have hsplit : "xport".toList ++ (a ++ ("const".toList ++ (b ++ (nameOf o ++ x)))) =
            v ++ t := by
          simpa using htail
        rw [hsplit]
        exact (hstart t ht).isInfix.trans (List.suffix_append v t).isInfix
    · rcases hy with rfl | ⟨z, rfl, hz, hplain⟩
      · rw [(List.append_eq_nil_iff.1 ht.symm).2] at hh
        exact absurd (List.prefix_nil.1 hh) (by decide)
      · cases t with
        | nil =>
          obtain ⟨more, hmore⟩ := hh
          rw [List.nil_append] at ht
          rw [← ht] at hmore
          exact absurd (List.cons.inj hmore).1 (by decide)
        | cons c t =>
          obtain ⟨rfl, hzt⟩ := List.cons.inj ht
          have hmark : IsTypeMark endsType (':' :: (t ++ h')) := by
            refine ⟨t ++ h', rfl, by simp [hne], fun c hc => ?_⟩
            cases List.mem_append.1 hc with
            | inl hc => exact hplain c (by rw [hzt]; exact List.mem_append_left h hc)
            | inr hc =>
              have hnot : c ≠ '=' ∧ c ≠ ';' :=
                ⟨fun he => hequals (he ▸ hc), fun he => hend (he ▸ hc)⟩
              simp [endsType, hnot]
          have hopen : IsOpening (nameOf o) _ := .mk ha hb hx (.inr hmark)
          rw [hlead]
          simpa only [List.append_assoc, List.cons_append] using hopen

theorem definitionOf_eq_none_of_opens {v t t' : Text} (hv : v ≠ []) (ht : Opens t) (ht' : Opens t')
    (h : definitionOf (nameOf o) (v ++ t) = none) : definitionOf (nameOf o) (v ++ t') = none := by
  obtain ⟨u, r, rfl, hexport, hequals, hend⟩ := ht
  obtain ⟨u', r', rfl, hexport', hequals', -⟩ := ht'
  have hne : u ≠ [] := fun hnil => by
    rw [hnil] at hexport
    exact absurd (List.prefix_nil.1 hexport) (by decide)
  cases h' : definitionOf (nameOf o) (v ++ (u' ++ '=' :: r')) with
  | none => rfl
  | some s =>
    obtain ⟨x, hx, hsplit⟩ := exists_opening h'
    have hplain : '=' ∉ x := hx.no_stop (by decide) (not_mem_nameOf o _ (by decide))
    by_cases hmem : '=' ∈ v
    · obtain ⟨a, b, rfl, ha⟩ := List.eq_append_cons_of_mem hmem
      rw [List.append_assoc] at hsplit
      obtain ⟨rfl, -⟩ := append_cons_inj ha hplain hsplit
      rw [List.append_assoc, List.cons_append, definitionOf_append hx] at h
      exact nomatch h
    · have hvu : '=' ∉ v ++ u' := by simp [hmem, hequals']
      rw [← List.append_assoc] at hsplit
      obtain ⟨rfl, -⟩ := append_cons_inj hvu hplain hsplit
      rw [← List.append_assoc, definitionOf_append (hx.replace hv hexport' hne hequals hend)] at h
      exact nomatch h

theorem isInert_lineOf {base : Text} (h : IsAddress base) (hne : m ≠ o) :
    IsInert (definitionOf (nameOf m)) (lineOf base o) := by
  obtain ⟨x, hx, hword⟩ := exists_line h o
  obtain ⟨-, y, hy, -⟩ := isStatement_line h o
  have hlast : (lineOf base o).getLast? = some ';' := by
    rw [hy]
    simp
  have hxne : x ≠ [] := by
    intro hnil
    rw [hx, hnil] at hlast
    exact absurd hlast (by decide)
  have hrest : IsInert (definitionOf (nameOf m)) x := by
    refine isInert_of_no_word definitionOf_starts (c := ';') ?_ ?_ (by decide)
    · exact fun hmem => hword (hmem.trans (List.prefix_append x _).isInfix)
    · rw [hx] at hlast
      exact (getLast?_suffix (u := ['e']) rfl hxne).symm.trans hlast
  intro u v huv hv rest
  cases u with
  | nil =>
    obtain rfl : lineOf base o = v := huv
    exact definitionOf_line_of_ne base rest hne
  | cons d u =>
    rw [hx] at huv
    exact hrest u v (List.cons.inj huv).2 hv rest

end IconCatalog.ImageHelper
