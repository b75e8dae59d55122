import IconCatalog.Proofs.Table.File
/-!
When a printed table is read as the table that was printed. Double quotes in names stand in the way:
a name with one is spelled in single quotes by every text that reads as it, and the printer writes
none, so that no reading of the printed body has enough of them.
-/
namespace IconCatalog
open Text Source

def Entry.texts (e : Entry) : Text := e.name ++ e.light ++ e.dark

/-- The texts of an entry, with two single quotes if its name has double quotes in it. -/
def Entry.spelled (e : Entry) : Text :=
  e.texts ++ if doubleQuote ∈ e.name then [singleQuote, singleQuote] else []

theorem Entry.count_spelled (e : Entry) : e.spelled.count singleQuote =
    e.texts.count singleQuote + if doubleQuote ∈ e.name then 2 else 0 := by
  rw [spelled, List.count_append]
  split <;> rfl

theorem Source.IsKey.quotes_le {s k : Text} (h : IsKey s k) :
    k.count singleQuote + (if doubleQuote ∈ k then 2 else 0) ≤ s.count singleQuote := by
  cases h with
  | @quoted q k hq hk =>
    cases hq with
    | inl hq =>
      have hfree : doubleQuote ∉ k := fun hmem => (hk _ hmem).1 hq.symm
      rw [if_neg hfree, List.count_cons, List.count_append]
      omega
    | inr hq =>
      rw [hq, List.count_cons_self, List.count_append, List.count_cons_self]
      split <;> omega
  | bare hne hk =>
    rw [if_neg (IsName.not_mem ⟨hne, hk⟩ (by decide))]
    omega

namespace Table

theorem IsField.quotes_le {label s e : Text} (h : IsField label s e) :
    e.count singleQuote ≤ s.count singleQuote := by
  cases h with
  | @mk v w x _ _ _ =>
    have hskip : (skipGap x).count singleQuote ≤ x.count singleQuote :=
      (List.dropWhile_suffix isGap).sublist.count_le _
    have htrim : (trimEnd (skipGap x)).count singleQuote ≤ (skipGap x).count singleQuote := by
      obtain ⟨z, -, hz⟩ := exists_trimEnd (skipGap x)
      have hcount := congrArg (List.count singleQuote) hz
      rw [List.count_append] at hcount
      omega
    rw [List.count_append, List.count_cons]
    omega

theorem IsEntry.quotes_le {s : Text} {e : Entry} (h : IsEntry s e) :
    e.spelled.count singleQuote ≤ s.count singleQuote := by
  cases h with
  | @mk key name s light dark hkey hs =>
    cases hs with
    | mk _ _ hlight hdark =>
      have hname := hkey.quotes_le
      have hl := hlight.quotes_le
      have hd := hdark.quotes_le
      rw [Entry.count_spelled, Entry.texts]
      simp only [List.count_append, List.count_cons]
      omega

theorem count_renderBody {layout : Layout} (hlayout : Layout.IsUsable layout.indent) (t : Table) :
    (t.renderBody layout).count singleQuote =
      ((t.listing.map (·.2)).flatMap Entry.texts).count singleQuote := by
  have hnl : singleQuote ∉ layout.newline.text :=
    not_mem_of_isGap layout.newline.isGap_text (by decide)
  have hindent : singleQuote ∉ layout.indent := not_mem_of_isGap hlayout.isGap (by decide)
  have hbetween := not_mem_between hnl hindent (by decide) fun c => by cases c <;> decide
  have hitem (x : Category × Entry) :
      ((series layout).item x).count singleQuote = x.2.texts.count singleQuote := by
    obtain ⟨c, e⟩ := x
    have hentry := count_entryText hnl hindent (by decide) e
    rw [series_item, hentry, Entry.texts, List.count_append, List.count_append]
  rw [renderBody_eq, Series.count_print hbetween hindent]
  induction t.listing with
  | nil => rfl
  | cons x l ih =>
    rw [List.flatMap_cons, List.map_cons, List.flatMap_cons, List.count_append, List.count_append,
      ih, hitem]

theorem perm_listing_cons (t : Table) (c : Category) (e : Entry) :
    ((t.cons c e).listing.map (·.2)).Perm (e :: t.listing.map (·.2)) := by
  rw [map_listing, map_listing]
  cases c with
  | token => exact .refl _
  | wallet => exact List.perm_middle
  | system =>
    have h : (t.wallets ++ e :: t.systems).Perm (e :: (t.wallets ++ t.systems)) := List.perm_middle
    exact (h.append_left t.tokens).trans List.perm_middle

theorem perm_of_ofEntries {es : List Entry} {t : Table} (h : ofEntries es = .ok t) :
    es.Perm (t.listing.map (·.2)) := by
  induction es generalizing t with
  | nil =>
    obtain rfl := Except.ok.inj h
    exact .nil
  | cons e es ih =>
    obtain ⟨c, s, -, hs, rfl⟩ := ofEntries_cons_eq_ok_iff.1 h
    exact ((ih hs).cons e).trans (perm_listing_cons s c e).symm

theorem perm_listing {s t : Table} (h : ∀ c, (s.group c).Perm (t.group c)) :
    (s.listing.map (·.2)).Perm (t.listing.map (·.2)) := by
  rw [map_listing, map_listing]
  exact (h .token).append ((h .wallet).append (h .system))

theorem count_texts_le (es : List Entry) :
    (es.flatMap Entry.texts).count singleQuote ≤ (es.flatMap Entry.spelled).count singleQuote := by
  induction es with
  | nil => exact Nat.le_refl _
  | cons e es ih =>
    rw [List.flatMap_cons, List.flatMap_cons, List.count_append, List.count_append, e.count_spelled]
    omega

/-- If a printed body reads as its own entries in some order, no name has a double quote. -/
theorem no_quote_of_body {layout : Layout} (hlayout : Layout.IsUsable layout.indent) {t : Table}
    {after : Text} {es : List Entry} (hbody : IsBody IsEntry after (t.renderBody layout) es)
    (hperm : es.Perm (t.listing.map (·.2))) : ∀ c, ∀ e ∈ t.group c, doubleQuote ∉ e.name := by
  have hle := hbody.count_flatMap_le fun hs => hs.quotes_le
  rw [(hperm.flatMap_right _).count_eq, count_renderBody hlayout] at hle
  intro c e he hquote
  have hmem : e ∈ t.listing.map (·.2) := List.mem_map.2 ⟨(c, e), mem_listing.2 he, rfl⟩
  -- the two quotes around this name are missing, whatever the other entries hold
  obtain ⟨before, behind, hsplit⟩ := List.append_of_mem hmem
  have hbefore := count_texts_le before
  have hbehind := count_texts_le behind
  rw [hsplit] at hle
  simp only [List.flatMap_append, List.flatMap_cons, List.count_append, e.count_spelled,
    if_pos hquote] at hle
  omega

end Table

namespace TableFile
open Table
variable {s : Text} {f : TableFile}

/-- With other settled entries in it, a file is read as what was put into it if and only if no name
has a double quote and the new text shows one header. -/
theorem reread_iff (h : read s = .ok f) {t : Table}
    (ht : ∀ c, ∀ e ∈ t.group c, e.IsSettled ∧ c.IsCalledIn e.light) :
    (∃ f', read { f with table := t }.render = .ok f' ∧ f'.tail = f.tail ∧
      ∀ c, (f'.table.group c).Perm (t.group c)) ↔
    (∀ c, ∀ e ∈ t.group c, doubleQuote ∉ e.name) ∧
      (occurrences Table.header { f with table := t }.render).length = 1 := by
  obtain ⟨es, hfile, -⟩ := read_eq_ok_iff.1 h
  have hone : (occurrences Table.header { f with table := t }.render).length = 1 ↔
      IsSilent Table.header (f.head.foldl LineState.step .start)
        ((series f.layout).print t.listing ++ f.tail) := by
    rw [render_eq]
    exact hfile.length_eq_one_iff
  rw [hone]
  constructor
  · intro ⟨f', hread, htail, hgroups⟩
    rw [render_eq, read_eq_ok_iff] at hread
    obtain ⟨es', hfile', hes⟩ := hread
    obtain ⟨body, rest, hprint, -, hbody, hsilent⟩ := FileKind.IsRead.reread hfile hfile'
    rw [htail] at hprint
    rw [← List.append_cancel_right hprint, ← renderBody_eq] at hbody
    exact ⟨no_quote_of_body hfile.isUsable hbody
      ((perm_of_ofEntries hes).trans (perm_listing hgroups)), hsilent⟩
  · intro ⟨hquote, hsilent⟩
    have hprintable : t.IsPrintable := fun c e he => ⟨⟨(ht c e he).1, hquote c e he⟩, (ht c e he).2⟩
    have hread := hfile.print hprintable.of_mem_listing hsilent
    exact ⟨_, read_render hprintable hread, rfl, fun c => .refl _⟩

end TableFile
end IconCatalog
