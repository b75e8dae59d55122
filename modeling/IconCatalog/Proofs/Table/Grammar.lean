import IconCatalog.Proofs.Source.Body
import IconCatalog.Proofs.Source.Expression
import IconCatalog.Table.File
/-!
The grammar of lookup tables. A table file is read if and only if it has one header, the text behind
it is a body of this grammar with a closing brace, and every entry calls a known image helper; each
group then holds its entries in the order of the source.
-/
namespace IconCatalog
open Text Source

/-- The expression starts with the helper of the category and an opening bracket, with blanks in
front of either. -/
def Category.IsCalledIn (c : Category) (e : Text) : Prop :=
  ∃ v w r, (∀ x ∈ v, isBlank x = true) ∧ (∀ x ∈ w, isBlank x = true) ∧
    e = v ++ c.helper ++ w ++ '(' :: r

namespace Category

theorem exists_helper (c : Category) : ∃ h, c.helper = 'b' :: h := by cases c <;> exact ⟨_, rfl⟩

theorem calls_iff {c : Category} {e : Text} : c.calls e = true ↔ c.IsCalledIn e := by
  obtain ⟨h, hh⟩ := c.exists_helper
  unfold calls
  constructor
  · intro hc
    obtain ⟨v, hv, he⟩ := exists_trimStart e
    split at hc
    · simp at hc
    · next r hr =>
      obtain ⟨w, hw, hr'⟩ := exists_trimStart r
      cases hu : trimStart r with
      | nil => simp [hu] at hc
      | cons x u =>
        rw [hu] at hc hr'
        obtain rfl : x = '(' := by simpa using hc
        refine ⟨v, w, u, hv, hw, ?_⟩
        rw [he, after?_eq_some_iff.1 hr, hr']
        simp
  · rintro ⟨v, w, r, hv, hw, rfl⟩
    have hstart : trimStart (v ++ c.helper ++ w ++ '(' :: r) = c.helper ++ (w ++ '(' :: r) := by
      simp only [hh, List.append_assoc, List.cons_append]
      exact trimStart_append_cons hv (by decide) _
    simp only [hstart, after?_append, trimStart_append_cons hw (show isBlank '(' = false by decide)]
    rfl

theorem IsCalledIn.unique {c d : Category} {e : Text} (hc : c.IsCalledIn e)
    (hd : d.IsCalledIn e) : c = d := by
  have hstart {c : Category} (h : c.IsCalledIn e) : c.helper <+: trimStart e := by
    obtain ⟨v, w, r, hv, -, rfl⟩ := h
    obtain ⟨h, hh⟩ := c.exists_helper
    simp only [hh, List.append_assoc, List.cons_append]
    rw [trimStart_append_cons hv (by decide)]
    exact ⟨w ++ '(' :: r, rfl⟩
  have hlen : c.helper.length ≤ d.helper.length ∨ d.helper.length ≤ c.helper.length :=
    Nat.le_total ..
  cases hlen with
  | inl hlen =>
    have := List.prefix_of_prefix_length_le (hstart hc) (hstart hd) hlen
    cases c <;> cases d <;> first | rfl | exact absurd this (by decide)
  | inr hlen =>
    have := List.prefix_of_prefix_length_le (hstart hd) (hstart hc) hlen
    cases c <;> cases d <;> first | rfl | exact absurd this (by decide)

theorem isCalledIn_of_ofExpression? {c : Category} {e : Text} (h : ofExpression? e = some c) :
    c.IsCalledIn e :=
  calls_iff.1 (List.find?_some (p := fun c : Category => c.calls e) h)

theorem ofExpression?_eq_some_iff {c : Category} {e : Text} :
    ofExpression? e = some c ↔ c.IsCalledIn e := by
  refine ⟨isCalledIn_of_ofExpression?, fun h => ?_⟩
  cases hd : ofExpression? e with
  | none => exact absurd (calls_iff.2 h) (List.find?_eq_none.1 hd c (mem_all c))
  | some d => rw [IsCalledIn.unique h (isCalledIn_of_ofExpression? hd)]

end Category

namespace Table

inductive IsField (label : Text) : Text → Text → Prop where
  | mk : IsGap v → IsGap w → IsExpression x →
      IsField label (v ++ label ++ w ++ ':' :: x) (trimEnd (skipGap x))

/-- The spelling `: { lightMode: EXPR, darkMode: EXPR }` of the two expressions behind a key, with
layout between the tokens and a comma that may stand before or behind the closing brace. -/
inductive IsExpressions : Text → Text × Text → Prop where
  | mk : IsGap u → IsGap v → IsField lightLabel lightField light →
      IsField darkLabel darkField dark → IsComma ahead → IsGap w → IsComma behind →
      IsExpressions (u ++ ':' :: (v ++ '\x7b' ::
        (lightField ++ ',' :: (darkField ++ ahead ++ w ++ '\x7d' :: behind)))) (light, dark)

inductive IsEntry : Text → Entry → Prop where
  | mk : IsKey key name → IsExpressions s (light, dark) → IsEntry (key ++ s) ⟨name, light, dark⟩

theorem skipComma_append {s rest : Text} (h : IsComma s)
    (hrest : char? ',' (skipGap rest) = none) : skipComma (s ++ rest) = rest := h.skip hrest

theorem skipGap_append_of_filled {x : Text} (h : isAllBlank x = false) (r : Text) :
    skipGap (x ++ r) = skipGap x ++ r := by
  rw [skipGap, List.dropWhile_append, if_neg, ← skipGap]
  intro hnil
  have hall : ∀ c ∈ x, isGap c = true := by
    have h := List.takeWhile_append_dropWhile (p := isGap) (l := x)
    rw [List.isEmpty_iff.1 hnil, List.append_nil] at h
    intro c hc
    exact List.all_eq_true.1 List.all_takeWhile c (by rw [h]; exact hc)
  have : isAllBlank x = true := List.all_eq_true.2 fun c hc => isBlank_of_isGap (hall c hc)
  rw [h] at this
  exact absurd this (by simp)

theorem field?_eq_some_iff {label t e r : Text} (hlabel : ∃ c ∈ label.head?, isGap c = false) :
    field? label t = some (e, r) ↔
      ∃ s, t = s ++ r ∧ IsField label s e ∧ ∃ c ∈ r.head?, endsExpression c = true := by
  have hskip (z : Text) : skipGap (label ++ z) = label ++ z := by
    obtain ⟨c, hc, hgap⟩ := hlabel
    cases label with
    | nil => cases hc
    | cons d label => obtain rfl := Option.some.inj hc; exact skipGap_cons hgap _
  simp only [field?, Option.bind_eq_bind, Option.bind_eq_some_iff]
  constructor
  · rintro ⟨t₁, h₁, t₂, h₂, h₃⟩
    obtain ⟨v, hv, ht⟩ := exists_gap t
    obtain ⟨w, hw, ht₁⟩ := (char?_skipGap_iff (by decide)).1 h₂
    obtain ⟨y, hy, hyexp, hend, rfl⟩ := expression?_eq_some_iff.1 h₃
    obtain ⟨u, hu, ht₂⟩ := exists_gap t₂
    have hx : IsExpression (u ++ y) :=
      (isExpression_blank_append fun c hc => isBlank_of_isGap (hu c hc)).2 hyexp
    have hvalue : skipGap (u ++ y) = y := by
      have hcancel : skipGap y ++ r = y ++ r := by
        rw [← skipGap_append_of_filled hyexp.filled, ← hy, skipGap_skipGap]
      rw [skipGap_append hu]
      exact List.append_cancel_right hcancel
    refine ⟨v ++ label ++ w ++ ':' :: (u ++ y), ?_, ?_, hend⟩
    · rw [ht, after?_eq_some_iff.1 h₁, ht₁, ht₂, hy]
      simp
    · have hfield : IsField label _ _ := .mk hv hw hx
      rwa [hvalue] at hfield
  · rintro ⟨s, rfl, hs, hend⟩
    cases hs with
    | @mk v w x hv hw hx =>
      refine ⟨w ++ ':' :: (x ++ r), ?_, x ++ r, ?_, ?_⟩
      · simp only [List.append_assoc, List.cons_append]
        rw [skipGap_append hv, hskip, after?_append]
      · exact (char?_skipGap_iff (by decide)).2 ⟨w, hw, rfl⟩
      · rw [skipGap_append_of_filled hx.filled]
        exact expression?_eq_some_iff.2 ⟨skipGap x, rfl, isExpression_skipGap.2 hx, hend, rfl⟩

theorem isGap_eq_nil_of_head {w r : Text} (hw : IsGap w)
    (h : ∃ c ∈ (w ++ r).head?, endsExpression c = true) : w = [] := by
  cases w with
  | nil => rfl
  | cons d w =>
    obtain ⟨c, hc, hend⟩ := h
    obtain rfl := Option.some.inj hc
    have hblank := isNeutral_of_isBlank (isBlank_of_isGap (hw d List.mem_cons_self))
    exact absurd hend (by simp [hblank.stop])

theorem isExpressions_of_expressions? {t r : Text} {es : Text × Text}
    (h : expressions? t = some (es, r)) : ∃ s, t = s ++ r ∧ IsExpressions s es := by
  simp only [expressions?, Option.bind_eq_bind, Option.bind_eq_some_iff, Prod.exists,
    Option.some.injEq, Prod.mk.injEq] at h
  obtain ⟨t₁, h₁, t₂, h₂, light, t₃, h₃, t₄, h₄, dark, t₅, h₅, t₆, h₆, rfl, rfl⟩ := h
  obtain ⟨u, hu, ht⟩ := (char?_skipGap_iff (by decide)).1 h₁
  obtain ⟨v, hv, ht₁⟩ := (char?_skipGap_iff (by decide)).1 h₂
  obtain ⟨lightField, ht₂, hlight, hend⟩ := (field?_eq_some_iff ⟨'l', rfl, by decide⟩).1 h₃
  obtain ⟨o, ho, ht₃⟩ := (char?_skipGap_iff (by decide)).1 h₄
  obtain rfl : o = [] := isGap_eq_nil_of_head ho (ht₃ ▸ hend)
  obtain ⟨darkField, ht₄, hdark, -⟩ := (field?_eq_some_iff ⟨'d', rfl, by decide⟩).1 h₅
  obtain ⟨ahead, hahead, ht₅⟩ : ∃ s, IsComma s ∧ t₅ = s ++ skipComma t₅ := exists_comma t₅
  obtain ⟨w, hw, ht₆⟩ := (char?_skipGap_iff (by decide)).1 h₆
  obtain ⟨behind, hbehind, ht₇⟩ : ∃ s, IsComma s ∧ t₆ = s ++ skipComma t₆ := exists_comma t₆
  refine ⟨_, ?_, .mk hu hv hlight hdark hahead hw hbehind⟩
  rw [ht, ht₁, ht₂, ht₃, ht₄, ht₅, ht₆]
  simp only [List.append_assoc, List.cons_append, List.nil_append, ← ht₇]

theorem IsField.append_gap {label s e g : Text} (h : IsField label s e) (hg : IsGap g) :
    IsField label (s ++ g) e := by
  cases h with
  | @mk v w x hv hw hx =>
    have hblank : ∀ c ∈ g, isBlank c = true := fun c hc => isBlank_of_isGap (hg c hc)
    have hfield : IsField label _ _ := .mk hv hw ((isExpression_append_blank hblank).2 hx)
    rw [skipGap_append_of_filled hx.filled, trimEnd_append_blank hblank] at hfield
    simpa using hfield

/-- The last expression of an entry is read up to its comma or closing brace, whichever is first. -/
theorem field?_of_closing {label s e ahead w rest : Text}
    (hlabel : ∃ c ∈ label.head?, isGap c = false) (h : IsField label s e) (hahead : IsComma ahead)
    (hw : IsGap w) : ∃ t, field? label (s ++ (ahead ++ (w ++ '\x7d' :: rest))) = some (e, t) ∧
      char? '\x7d' (skipGap (skipComma t)) = some rest := by
  cases hahead with
  | left_out =>
    refine ⟨'\x7d' :: rest, (field?_eq_some_iff hlabel).2 ⟨s ++ w, by simp, h.append_gap hw,
      '\x7d', rfl, by decide⟩, ?_⟩
    rw [← List.nil_append ('\x7d' :: rest), skipComma_append .left_out (by rfl)]
    rfl
  | @written g hg =>
    refine ⟨',' :: (w ++ '\x7d' :: rest), (field?_eq_some_iff hlabel).2 ⟨s ++ g, by simp,
      h.append_gap hg, ',', rfl, by decide⟩, ?_⟩
    have hnone : char? ',' (skipGap (w ++ '\x7d' :: rest)) = none := by
      rw [skipGap_gap_cons hw (by decide)]
      rfl
    have := skipComma_append (.written isGap_nil) hnone
    rw [List.nil_append, List.singleton_append] at this
    rw [this]
    exact (char?_skipGap_iff (by decide)).2 ⟨w, hw, rfl⟩

theorem IsExpressions.expressions? {s rest : Text} {es : Text × Text} (h : IsExpressions s es)
    (hrest : char? ',' (skipGap rest) = none) :
    Table.expressions? (s ++ rest) = some (es, rest) := by
  cases h with
  | @mk u v lightField light darkField dark ahead w behind hu hv hlight hdark hahead hw hbehind =>
    obtain ⟨t, hread, hclose⟩ : ∃ t, field? darkLabel
        (darkField ++ (ahead ++ (w ++ '\x7d' :: (behind ++ rest)))) = some (dark, t) ∧
          char? '\x7d' (skipGap (skipComma t)) = some (behind ++ rest) :=
      field?_of_closing ⟨'d', rfl, by decide⟩ hdark hahead hw
    simp only [Table.expressions?, Option.bind_eq_bind, Option.bind_eq_some_iff, Prod.exists,
      Option.some.injEq, Prod.mk.injEq, List.append_assoc, List.cons_append]
    exact ⟨_, (char?_skipGap_iff (by decide)).2 ⟨u, hu, rfl⟩, _,
      (char?_skipGap_iff (by decide)).2 ⟨v, hv, rfl⟩, light, _,
      (field?_eq_some_iff ⟨'l', rfl, by decide⟩).2
        ⟨lightField, rfl, hlight, ',', rfl, by decide⟩, _,
      (char?_skipGap_iff (by decide)).2 ⟨[], isGap_nil, rfl⟩, dark, t, hread, behind ++ rest,
      hclose, ⟨rfl, rfl⟩, skipComma_append hbehind hrest⟩

theorem entries_reads : entries.Reads IsEntry where
  start := fun {s e} h => by
    cases h with
    | mk hkey =>
      obtain ⟨c, hc, hstart⟩ := hkey.start
      refine ⟨c, ?_, hstart⟩
      rw [List.head?_append, Option.mem_def.1 hc]
      rfl
  sound := fun {t e r} h => by
    simp only [entries, entryAt?, Option.bind_eq_bind, Option.bind_eq_some_iff, Prod.exists,
      Option.some.injEq, Prod.mk.injEq] at h
    obtain ⟨name, t₁, h₁, light, dark, t₂, h₂, rfl, rfl⟩ := h
    obtain ⟨key, ht, hkey⟩ := isKey_of_key? h₁
    obtain ⟨s, ht₁, hs⟩ := isExpressions_of_expressions? h₂
    exact ⟨key ++ s, by rw [ht, ht₁, List.append_assoc], .mk hkey hs⟩
  complete := fun {s e rest} h hrest => by
    cases h with
    | @mk key name s light dark hkey hs =>
      have hhead : ∀ c ∈ (s ++ rest).head?, isNameChar c = false := by
        cases hs with
        | mk hu =>
          simp only [List.append_assoc, List.cons_append]
          exact head_gap_append hu (by decide) _
      simp only [entries, entryAt?, Option.bind_eq_bind, Option.bind_eq_some_iff, Prod.exists,
        Option.some.injEq, Prod.mk.injEq]
      refine ⟨name, s ++ rest, ?_, light, dark, rest, hs.expressions? hrest, rfl, rfl⟩
      rw [List.append_assoc]
      exact hkey.key? hhead

@[simp] theorem group_cons (t : Table) (c d : Category) (e : Entry) :
    (t.cons c e).group d = if d = c then e :: t.group c else t.group d := group_setGroup ..

def grouped (es : List Entry) : Table :=
  ⟨es.filter (Category.token.calls ·.light), es.filter (Category.wallet.calls ·.light),
    es.filter (Category.system.calls ·.light)⟩

@[simp] theorem group_grouped (es : List Entry) (c : Category) :
    (grouped es).group c = es.filter (c.calls ·.light) := by
  cases c <;> rfl

theorem grouped_cons {c : Category} {e : Entry} (h : c.IsCalledIn e.light) (es : List Entry) :
    grouped (e :: es) = (grouped es).cons c e := by
  refine ext_group fun d => ?_
  have hcalls : d.calls e.light = decide (d = c) := by
    rw [Bool.eq_iff_iff, Category.calls_iff, decide_eq_true_iff]
    exact ⟨fun hd => hd.unique h, fun hd => hd ▸ h⟩
  rw [group_cons, group_grouped, group_grouped, group_grouped, List.filter_cons, hcalls]
  by_cases hd : d = c
  · simp [hd]
  · simp [hd]

theorem ofEntries_cons_eq_ok_iff {e : Entry} {es : List Entry} {t : Table} :
    ofEntries (e :: es) = .ok t ↔ ∃ c s, Category.ofExpression? e.light = some c ∧
      ofEntries es = .ok s ∧ s.cons c e = t := by
  rw [ofEntries]
  cases Category.ofExpression? e.light with
  | none => simp
  | some c => cases ofEntries es <;> simp [Except.map]

theorem ofEntries_eq_ok_iff {es : List Entry} {t : Table} :
    ofEntries es = .ok t ↔
      (∀ e ∈ es, ∃ c : Category, c.IsCalledIn e.light) ∧ t = grouped es := by
  induction es generalizing t with
  | nil =>
    have hempty : grouped [] = empty := rfl
    simp [ofEntries, hempty, eq_comm]
  | cons e es ih =>
    rw [ofEntries_cons_eq_ok_iff, List.forall_mem_cons]
    constructor
    · intro ⟨c, s, hc, hs, ht⟩
      obtain ⟨hall, rfl⟩ := ih.1 hs
      have hcall := Category.isCalledIn_of_ofExpression? hc
      rw [grouped_cons hcall, ht]
      exact ⟨⟨⟨c, hcall⟩, hall⟩, rfl⟩
    · intro ⟨⟨⟨c, hcall⟩, hall⟩, ht⟩
      rw [grouped_cons hcall] at ht
      exact ⟨c, grouped es, Category.ofExpression?_eq_some_iff.2 hcall, ih.2 ⟨hall, rfl⟩, ht.symm⟩

end Table

instance (c : Category) (e : Text) : Decidable (c.IsCalledIn e) :=
  decidable_of_iff _ Category.calls_iff

namespace TableFile
open Table

theorem read_of_find {source : Text} {found : Found Entry}
    (h : Table.declaration.find source = .ok found) :
    read source = (ofEntries found.items).map fun t =>
      ⟨found.head, t, found.tail, .detect source found.body isEntryLine⟩ := by
  rw [read, h]
  cases hes : ofEntries found.items <;> simp [bind, Except.bind, Except.map, hes, pure, Except.pure]

theorem read_of_body {source b rest : Text} {header : Span} {es : List Entry}
    (hheader : occurrences Table.header source = [header])
    (hsource : source.drop header.stop = b ++ '\x7d' :: rest)
    (hbody : IsBody IsEntry ('\x7d' :: rest) b es) :
    read source = (ofEntries es).map fun t =>
      ⟨source.take header.stop, t, '\x7d' :: rest, .detect source b isEntryLine⟩ := by
  have hfind : Table.declaration.find source =
      .ok ⟨source.take header.stop, b, '\x7d' :: rest, es⟩ :=
    (Declaration.find_eq_ok_iff entries_reads hheader).2 ⟨rest, rfl, rfl, hsource, hbody⟩
  exact read_of_find hfind

theorem exists_body_of_read {source : Text} {f : TableFile} (h : read source = .ok f) :
    ∃ header b rest es, occurrences Table.header source = [header] ∧
      source.drop header.stop = b ++ '\x7d' :: rest ∧ IsBody IsEntry ('\x7d' :: rest) b es ∧
      ofEntries es = .ok f.table ∧ f.head = source.take header.stop ∧ f.tail = '\x7d' :: rest ∧
      f.layout = .detect source b isEntryLine := by
  obtain ⟨found, hfind, h⟩ := bind_eq_ok_iff.1 h
  obtain ⟨t, hes, h⟩ := bind_eq_ok_iff.1 h
  obtain rfl := Except.ok.inj h
  obtain ⟨header, rest, hheader, htail, hhead, hsource, hbody⟩ :=
    Declaration.exists_of_find entries_reads hfind
  exact ⟨header, found.body, rest, found.items, hheader, hsource, hbody, hes, hhead, htail, rfl⟩

/-- Behind the only header of a source, reading accepts exactly the bodies of the grammar whose
entries all call a helper, and each group is what the grammar tells, in the order of the source. -/
theorem read_accepts_grammar (source : Text) (header : Span)
    (hheader : occurrences Table.header source = [header]) :
    ((∃ f, read source = .ok f) ↔ ∃ b es rest, source.drop header.stop = b ++ '\x7d' :: rest ∧
      IsBody IsEntry ('\x7d' :: rest) b es ∧ ∀ e ∈ es, ∃ c : Category, c.IsCalledIn e.light) ∧
    ∀ b es rest f, source.drop header.stop = b ++ '\x7d' :: rest →
      IsBody IsEntry ('\x7d' :: rest) b es → read source = .ok f →
        ∀ c, f.table.group c = es.filter fun e => c.IsCalledIn e.light := by
  refine ⟨⟨?_, ?_⟩, ?_⟩
  · intro ⟨f, h⟩
    obtain ⟨header', b, rest, es, hheader', hsource, hbody, hes, -⟩ := exists_body_of_read h
    obtain rfl : header = header' := by simpa using hheader.symm.trans hheader'
    exact ⟨b, es, rest, hsource, hbody, (ofEntries_eq_ok_iff.1 hes).1⟩
  · intro ⟨b, es, rest, hsource, hbody, hall⟩
    rw [read_of_body hheader hsource hbody, ofEntries_eq_ok_iff.2 ⟨hall, rfl⟩]
    exact ⟨_, rfl⟩
  · intro b es rest f hsource hbody h c
    rw [read_of_body hheader hsource hbody] at h
    cases hes : ofEntries es with
    | error fault => rw [hes] at h; exact nomatch h
    | ok t =>
      rw [hes] at h
      obtain rfl := Except.ok.inj h
      obtain ⟨-, rfl⟩ := ofEntries_eq_ok_iff.1 hes
      rw [group_grouped]
      refine List.filter_congr fun e _ => ?_
      rw [Bool.eq_iff_iff, Category.calls_iff, decide_eq_true_iff]

/-- A table with one entry, whose key is in single quotes. -/
theorem read_accepts_single_quoted :
    let source := "export const iconMap = \x7b 'a': \x7b ".toList ++
      "lightMode: baseImgUrlToken(1), darkMode: 2 \x7d \x7d".toList
    occurrences Table.header source = [⟨0, 24⟩] ∧
    ((∃ f, read source = .ok f) ↔ ∃ b es rest, source.drop 24 = b ++ '\x7d' :: rest ∧
      IsBody IsEntry ('\x7d' :: rest) b es ∧ ∀ e ∈ es, ∃ c : Category, c.IsCalledIn e.light) ∧
    ∀ b es rest f, source.drop 24 = b ++ '\x7d' :: rest →
      IsBody IsEntry ('\x7d' :: rest) b es → read source = .ok f →
        ∀ c, f.table.group c = es.filter fun e => c.IsCalledIn e.light := by
  intro source
  have hheader : occurrences Table.header source = [⟨0, 24⟩] := by decide +kernel
  exact ⟨hheader, read_accepts_grammar source ⟨0, 24⟩ hheader⟩

end TableFile
end IconCatalog
