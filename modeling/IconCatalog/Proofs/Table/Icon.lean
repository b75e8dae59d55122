import IconCatalog.Proofs.Table.Header
import IconCatalog.Proofs.Table.Printed
/-!
Entries for new icons. Such an entry is read back from its printed form, it belongs to the category
it was made for, and its lines hold no heading of a table, nor can one reach over them.
-/
namespace IconCatalog
open Text Source

def IsArgument (a : Text) : Prop := ∀ c ∈ a, isNameChar c = true ∨ c = '-'

theorem IsArgument.not_mem {a : Text} (h : IsArgument a) {c : Char} (hc : isNameChar c = false)
    (hdash : c ≠ '-') : c ∉ a := fun hmem => by
  cases h c hmem with
  | inl h =>
    rw [h] at hc
    exact absurd hc (by simp)
  | inr h => exact hdash h

namespace Entry

theorem call_eq (c : Category) (a : Text) :
    call c a = c.helper ++ '(' :: doubleQuote :: (a ++ [doubleQuote, ')']) := by
  have hopen : "(\x22".toList = ['(', doubleQuote] := by decide
  have hclose : "\x22)".toList = [doubleQuote, ')'] := by decide
  rw [call, hopen, hclose]
  simp

theorem isArgument_suffix {name suffix : Text} (hname : IsName name)
    (hsuffix : IsArgument suffix) : IsArgument (name ++ suffix) := fun c hc =>
  (List.mem_append.1 hc).elim (fun h => .inl (hname.2 c h)) (hsuffix c)

theorem exists_ofIcon {name : Text} (hname : IsName name) (c : Category) (artwork : Artwork) :
    ∃ a b, IsArgument a ∧ IsArgument b ∧ ofIcon c name artwork = ⟨name, call c a, call c b⟩ := by
  have hplain : IsArgument name := fun x hx => .inl (hname.2 x hx)
  have hlight : IsArgument "-lightmode".toList := forall_of_all (by decide)
  have hdark : IsArgument "-darkmode".toList := forall_of_all (by decide)
  by_cases hsplit : artwork.isSplit c name = true
  · exact ⟨_, _, isArgument_suffix hname hlight, isArgument_suffix hname hdark,
      by rw [ofIcon, if_pos hsplit]⟩
  · exact ⟨name, name, hplain, hplain, by rw [ofIcon, if_neg hsplit]⟩

theorem isNeutral_of_isNameChar {x : Char} (h : isNameChar x = true) :
    IsNeutral endsExpression x :=
  isNeutral_of_class (by decide) h

theorem helper_isNameChar (c : Category) : ∀ x ∈ c.helper, isNameChar x = true := by
  cases c <;> exact forall_of_all (by decide)

theorem isSettled_call (c : Category) {a : Text} (ha : IsArgument a) :
    Source.IsSettled (call c a) := by
  obtain ⟨h, hh⟩ := c.exists_helper
  have hinside : ∀ x ∈ a, x ≠ '\\' ∧ x ≠ doubleQuote := fun x hx =>
    ⟨fun h => ha.not_mem (by decide) (by decide) (h ▸ hx),
      fun h => ha.not_mem (by decide) (by decide) (h ▸ hx)⟩
  have hpasses : Passes endsExpression .outside 0 (call c a) := by
    have hclose : Passes endsExpression (.inside doubleQuote) 1 [doubleQuote, ')'] := by
      simp [Passes, Literal.step, Literal.isQuote, endsExpression, opensBracket, closesBracket,
        doubleQuote, singleQuote, backtick]
    have hopen : Passes endsExpression .outside 0
        ('(' :: doubleQuote :: (a ++ [doubleQuote, ')'])) := by
      have hrest : Passes endsExpression (.inside doubleQuote) 1 (a ++ [doubleQuote, ')']) :=
        (passes_inside hinside).2 hclose
      simpa [Passes, Literal.isQuote, endsExpression, opensBracket, doubleQuote, singleQuote,
        backtick] using hrest
    rw [call_eq]
    have hneutral := fun x hx => isNeutral_of_isNameChar (helper_isNameChar c x hx)
    exact (passes_neutral_append hneutral).2 hopen
  have hfilled : isAllBlank (call c a) = false := by
    rw [call_eq, hh]
    rfl
  refine ⟨isExpression_iff.2 ⟨hpasses, hfilled⟩, skipGap_of_head fun x hx => ?_,
    trimEnd_of_getLast fun x hx => ?_⟩
  · rw [call_eq, hh] at hx
    obtain rfl := Option.some.inj hx
    decide
  · rw [call_eq] at hx
    simp only [List.getLast?_append, List.getLast?_cons, List.getLast?_nil] at hx
    obtain rfl : ')' = x := by simpa using hx
    decide

theorem not_mem_call {x : Char} (c : Category) {a : Text} (ha : x ∉ a) (hhelper : x ∉ c.helper)
    (hmark : x ∉ ['(', doubleQuote, ')']) : x ∉ call c a := by
  simp only [List.mem_cons, List.not_mem_nil, or_false, not_or] at hmark
  simp [call_eq, ha, hhelper, hmark]

theorem isCalledIn_call (c : Category) (a : Text) : c.IsCalledIn (call c a) :=
  ⟨[], [], doubleQuote :: (a ++ [doubleQuote, ')']), by simp, by simp, by simp [call_eq]⟩

theorem isPrintable_ofIcon {name : Text} (hname : IsName name) (c : Category)
    (artwork : Artwork) : (ofIcon c name artwork).IsPrintable := by
  obtain ⟨a, b, ha, hb, h⟩ := exists_ofIcon hname c artwork
  rw [h]
  exact ⟨⟨hname.not_mem (by decide), isSettled_call c ha, isSettled_call c hb⟩,
    hname.not_mem (by decide)⟩

theorem isCalledIn_ofIcon {name : Text} (hname : IsName name) (c : Category)
    (artwork : Artwork) : c.IsCalledIn (ofIcon c name artwork).light := by
  obtain ⟨a, b, -, -, h⟩ := exists_ofIcon hname c artwork
  rw [h]
  exact isCalledIn_call c a

theorem no_return_ofIcon {name : Text} (hname : IsName name) (c : Category) (artwork : Artwork) :
    let e := ofIcon c name artwork
    '\r' ∉ e.name ∧ '\r' ∉ e.light ∧ '\r' ∉ e.dark := by
  obtain ⟨a, b, ha, hb, h⟩ := exists_ofIcon hname c artwork
  have hhelper : '\r' ∉ c.helper := by cases c <;> decide
  simp only [h]
  exact ⟨hname.not_mem (by decide),
    not_mem_call c (ha.not_mem (by decide) (by decide)) hhelper (by decide),
    not_mem_call c (hb.not_mem (by decide) (by decide)) hhelper (by decide)⟩

end Entry

namespace Table

theorem not_mem_between {layout : Layout} {x : Char} (hnl : x ∉ layout.newline.text)
    (hindent : x ∉ layout.indent) (hcomma : x ≠ ',') (hnote : ∀ c : Category, x ∉ c.placeholder)
    (prev next : Option (Category × Entry)) : x ∉ (series layout).between prev next := by
  refine Series.not_mem_between hnl hcomma (fun prev next l hl => ?_) prev next
  cases List.mem_append.1 hl with
  | inl hl =>
    split at hl
    · simp [List.mem_singleton.1 hl]
    · exact absurd hl (by simp)
  | inr hl =>
    obtain ⟨c, -, rfl⟩ := List.mem_map.1 hl
    simp [hindent, hnote c]

theorem isInert_between {layout : Layout} (hlayout : Layout.IsUsable layout.indent)
    (prev next : Option (Category × Entry)) :
    IsInert header ((series layout).between prev next) := by
  have hnl : 'x' ∉ layout.newline.text := not_mem_of_isGap layout.newline.isGap_text (by decide)
  have hindent : 'x' ∉ layout.indent := not_mem_of_isGap hlayout.isGap (by decide)
  have hfree : 'x' ∉ (series layout).between prev next :=
    not_mem_between hnl hindent (by decide) (fun c => by cases c <;> decide) prev next
  obtain ⟨w, hw⟩ := (series layout).exists_between prev next
  refine isInert_of_isQuiet (c := '\n') (isQuiet_of_not_mem hfree) ?_ (by decide)
  rw [hw]
  simp

theorem isQuiet_call {c : Category} {a y z : Text} (ha : IsArgument a) (hy : 'x' ∉ y)
    (hz : IsQuiet (')' :: z)) : IsQuiet (y ++ (Entry.call c a ++ z)) := by
  have hstart : 'x' ∉ y ++ (c.helper ++ ['(']) := by
    simp only [List.mem_append, not_or]
    exact ⟨hy, by cases c <;> decide, by decide⟩
  have hgap : ∀ x ∈ a, isGap x = false := fun x hx => by
    cases ha x hx with
    | inl h => exact isGap_of_isNameChar h
    | inr h =>
      subst h
      decide
  have hquiet := isQuiet_append_quote (isQuiet_of_not_mem hstart)
    (isQuiet_append_quote (isQuiet_of_no_gap hgap) hz)
  rw [Entry.call_eq]
  simpa using hquiet

theorem isInert_ofIcon {layout : Layout} (hlayout : Layout.IsUsable layout.indent) {name : Text}
    (hname : IsName name) (c : Category) (artwork : Artwork)
    (next : Option (Category × Entry)) :
    IsInert header (layout.indent ++ entryText layout (.ofIcon c name artwork) ++
      (series layout).between (some (c, .ofIcon c name artwork)) next) := by
  obtain ⟨w, hw⟩ := (series layout).exists_between (some (c, .ofIcon c name artwork)) next
  have hnl : 'x' ∉ layout.newline.text := not_mem_of_isGap layout.newline.isGap_text (by decide)
  have hindent : 'x' ∉ layout.indent := not_mem_of_isGap hlayout.isGap (by decide)
  have hfree : 'x' ∉ (series layout).between (some (c, .ofIcon c name artwork)) next :=
    not_mem_between hnl hindent (by decide) (fun c => by cases c <;> decide) _ next
  refine isInert_of_isQuiet (c := '\n') ?_ (by rw [hw]; simp) (by decide)
  rw [hw] at hfree ⊢
  obtain ⟨a, b, ha, hb, h⟩ := Entry.exists_ofIcon hname c artwork
  have hlabels : 'x' ∉ lightLabel ∧ 'x' ∉ darkLabel := by decide
  have hend :
      IsQuiet (')' :: (layout.newline.text ++ (layout.indent ++ '\x7d' :: (w ++ ['\n'])))) := by
    refine isQuiet_of_not_mem ?_
    have hw : 'x' ∉ w := fun h => hfree (List.mem_append_left _ h)
    simp [hnl, hindent, hw]
  have hdark := isQuiet_call (c := c) (y := ')' :: ',' :: (layout.newline.text ++ (layout.indent ++
    (layout.indent ++ (darkLabel ++ [':', ' ']))))) hb (by simp [hnl, hindent, hlabels]) hend
  have hlight := isQuiet_call (c := c) (y := ':' :: ' ' :: '\x7b' :: (layout.newline.text ++
    (layout.indent ++ (layout.indent ++ (lightLabel ++ [':', ' ']))))) (z := ',' ::
      (layout.newline.text ++ (layout.indent ++ (layout.indent ++ (darkLabel ++ ':' :: ' ' ::
        (Entry.call c b ++ (layout.newline.text ++ (layout.indent ++ '\x7d' :: (w ++ ['\n'])))))))))
    ha (by simp [hnl, hindent, hlabels]) (by simpa using hdark)
  have hquiet := isQuiet_append_quote (isQuiet_of_not_mem hindent)
    (isQuiet_append_quote (isQuiet_of_no_gap fun x hx => isGap_of_isNameChar (hname.2 x hx)) hlight)
  rw [h, entryText_eq]
  simpa using hquiet

theorem header_insertion {layout : Layout} (hlayout : Layout.IsUsable layout.indent) {name : Text}
    (hname : IsName name) (c : Category) (artwork : Artwork)
    (prev next : Option (Category × Entry)) {u : Text} (hu : '\x7b' ∉ u) (rest : Text) :
    header (u ++ ((series layout).insertion prev (c, .ofIcon c name artwork) next ++ rest)) =
      none := by
  have hnl : '\x7b' ∉ layout.newline.text := not_mem_of_isGap layout.newline.isGap_text (by decide)
  have hindent : '\x7b' ∉ layout.indent := not_mem_of_isGap hlayout.isGap (by decide)
  have hbetween : '\x7b' ∉ (series layout).between prev (some (c, .ofIcon c name artwork)) :=
    not_mem_between hnl hindent (by decide) (fun c => by cases c <;> decide) _ _
  obtain ⟨a, b, -, -, h⟩ := Entry.exists_ofIcon hname c artwork
  have hfree : '\x7b' ∉ u ++ ((series layout).between prev (some (c, .ofIcon c name artwork)) ++
      (layout.indent ++ doubleQuote :: (name ++ [doubleQuote]))) := by
    simp [hu, hbetween, hindent, hname.not_mem (c := '\x7b') (by decide), doubleQuote]
  have hnone := header_colon hfree isGap_space
  rw [h] at hnone ⊢
  rw [Series.insertion, series_item, entryText_eq]
  simp only [List.append_assoc, List.cons_append, List.nil_append] at hnone ⊢
  exact hnone _

theorem no_return_between {layout : Layout} (hlayout : Layout.IsUsable layout.indent)
    (hlf : layout.newline = .lf) (prev next : Option (Category × Entry)) :
    '\r' ∉ (series layout).between prev next :=
  not_mem_between (by rw [hlf]; decide) (hlayout.not_mem (by decide) (by decide)) (by decide)
    (fun c => by cases c <;> decide) prev next

theorem no_return_ofIcon {layout : Layout} (hlayout : Layout.IsUsable layout.indent)
    (hlf : layout.newline = .lf) {name : Text} (hname : IsName name) (c : Category)
    (artwork : Artwork) : '\r' ∉ entryText layout (.ofIcon c name artwork) := by
  obtain ⟨hn, hlight, hdark⟩ := Entry.no_return_ofIcon hname c artwork
  have hindent : '\r' ∉ layout.indent := hlayout.not_mem (by decide) (by decide)
  exact not_mem_entryText (by rw [hlf]; decide) hindent (by decide)
    hn hlight hdark

def HoldsIcons (t : Table) : Prop :=
  ∀ c, ∀ e ∈ t.group c, ∃ name artwork, IsName name ∧ e = .ofIcon c name artwork

namespace HoldsIcons
variable {t : Table} {layout : Layout}

theorem isPrintable (h : t.HoldsIcons) : t.IsPrintable := by
  intro c e he
  obtain ⟨name, artwork, hname, rfl⟩ := h c e he
  exact ⟨Entry.isPrintable_ofIcon hname c artwork, Entry.isCalledIn_ofIcon hname c artwork⟩

end HoldsIcons

end Table
end IconCatalog
