import IconCatalog.Proofs.Edit.Perform
import IconCatalog.Proofs.Enumeration.Reread
/-!
The values of members. Values are passed over when an enumeration is read, and each member is
printed with its name for its value. An edit therefore keeps the other members under their names,
and their values where these were their names.
-/
namespace IconCatalog
open Text Source

namespace Members

def change (ms : Members) : Action × Text → Members
  | (.add, name) => ms.insert name
  | (.remove, name) => ms.erase name

theorem count_change {ms : Members} {step : Action × Text} {n : Text} (hn : n ≠ step.2) :
    (ms.change step).count n = ms.count n := by
  obtain ⟨action, name⟩ := step
  cases action with
  | add =>
    show (ms.insert name).count n = ms.count n
    rw [insert]
    split
    · rfl
    · rw [(perm_sortBy _ _).count_eq, List.count_append, List.count_singleton]
      simp [Ne.symm hn]
  | remove =>
    show (ms.erase name).count n = ms.count n
    rw [erase, List.count_filter (by simpa using hn)]

theorem count_foldl_change {steps : List (Action × Text)} {n : Text}
    (hn : n ∉ steps.map (·.2)) (ms : Members) :
    (steps.foldl change ms).count n = ms.count n := by
  induction steps generalizing ms with
  | nil => rfl
  | cons step steps ih =>
    rw [List.map_cons, List.mem_cons, not_or] at hn
    rw [List.foldl_cons, ih hn.2, count_change hn.1]

theorem mem_foldl_change {steps : List (Action × Text)} {ms : Members} {n : Text}
    (h : n ∈ steps.foldl change ms) : n ∈ ms ∨ n ∈ steps.map (·.2) := by
  by_cases hn : n ∈ steps.map (·.2)
  · exact .inr hn
  · rw [← List.count_pos_iff, count_foldl_change hn, List.count_pos_iff] at h
    exact .inl h

end Members

namespace EnumFile
open Enumeration
variable {category : Category} {s : Text} {f : EnumFile}

/-- The members in a source text, each with its value. -/
def values (category : Category) (source : Text) : Except Fault (List (Text × Text)) :=
  let d := Enumeration.declaration category
  (Declaration.find ⟨d.name, d.opening, d.header, valuedMembers⟩ source).map (·.items)

theorem map_values (category : Category) (source : Text) :
    (values category source).map (List.map (·.1)) = (read category source).map (·.members) := by
  have hread (t : Text) : Enumeration.members.readAll t =
      ((valuedMembers.readAll t).1.map (·.1), (valuedMembers.readAll t).2) :=
    readAll_map member?_eq t
  unfold values read Declaration.find
  simp only [Enumeration.declaration, ItemReader.body_eq, hread]
  cases occurrences (header category) source with
  | nil => rfl
  | cons span spans =>
    cases spans with
    | cons second spans => rfl
    | nil =>
      simp only
      generalize valuedMembers.readAll (source.drop span.stop) = reading
      obtain ⟨items, rest⟩ := reading
      cases rest with
      | nil => rfl
      | cons c rest =>
        simp only
        split <;> rfl

theorem exists_values (h : read category s = .ok f) :
    ∃ vs, values category s = .ok vs ∧ vs.map (·.1) = f.members := by
  have hmap := map_values category s
  rw [h] at hmap
  cases hvalues : values category s with
  | error fault =>
    rw [hvalues] at hmap
    exact nomatch hmap
  | ok vs =>
    rw [hvalues] at hmap
    exact ⟨vs, rfl, Except.ok.inj hmap⟩

theorem values_render (h : read category s = .ok f) {ms : Members} (hms : ∀ m ∈ ms, IsPrintable m)
    (hone : (occurrences (header category) { f with members := ms }.render).length = 1) :
    values category { f with members := ms }.render = .ok (ms.map fun m => (m, m)) := by
  obtain ⟨rfl, hfile⟩ := read_eq_ok_iff.1 h
  obtain ⟨rest, htail⟩ := hfile.exists_rest
  rw [render_eq] at hone ⊢
  obtain ⟨span, (hspan : occurrences (header f.category)
      (f.head ++ ((series f.category f.layout).print ms ++ f.tail)) = [span]), hstop⟩ :=
    FileKind.IsRead.exists_header hfile hone
  have hbody : IsBody IsValued f.tail ((series f.category f.layout).print ms)
      (ms.map fun m => (m, m)) :=
    Series.isBody_print (isTidy_series f.category hfile.isUsable) fun m hm =>
      reads_valued (hms m hm)
  let found : Found (Text × Text) :=
    ⟨f.head, (series f.category f.layout).print ms, f.tail, ms.map fun m => (m, m)⟩
  have hfind : Declaration.find ⟨f.category.enumName, (declaration f.category).opening,
      header f.category, valuedMembers⟩
      (f.head ++ ((series f.category f.layout).print ms ++ f.tail)) = .ok found :=
    (Declaration.find_eq_ok_iff valuedMembers_reads hspan).2
      ⟨rest, htail, by rw [hstop, List.take_left], by rw [hstop, List.drop_left], hbody⟩
  exact congrArg (Except.map (·.items)) hfind

/-- Edits keep every other member under its name. In the new text, each member has its name for its
value, so that a member keeps its value if it was its name. -/
theorem edited_values (h : read category s = .ok f) (hquote : ∀ m ∈ f.members, doubleQuote ∉ m)
    {steps : List (Action × Text)} (hsteps : ∀ step ∈ steps, Edit.isValidName step.2 = true)
    (hone : (occurrences (header category)
      { f with members := steps.foldl Members.change f.members }.render).length = 1) :
    let ms := steps.foldl Members.change f.members
    let t := { f with members := ms }.render
    ∃ vs ws, values category s = .ok vs ∧ vs.map (·.1) = f.members ∧
      values category t = .ok ws ∧ (∃ f', read category t = .ok f' ∧ f'.members = ms) ∧
      ws = ms.map (fun m => (m, m)) ∧
      ∀ m ∈ vs, m.1 ∉ steps.map (·.2) → ms.count m.1 = f.members.count m.1 ∧
        (m.1, m.1) ∈ ws ∧ (m ∈ ws ↔ m.2 = m.1) := by
  intro ms t
  have hprintable : ∀ m ∈ ms, IsPrintable m := by
    intro m hm
    cases Members.mem_foldl_change hm with
    | inl hold => exact ⟨no_feed_of_read h m hold, hquote m hold⟩
    | inr hnew =>
      obtain ⟨step, hstep, rfl⟩ := List.mem_map.1 hnew
      exact isPrintable_of_isName (Edit.isValidName_iff.1 (hsteps step hstep))
  obtain ⟨vs, hvs, hnames⟩ := exists_values h
  have hread : ∃ f', read category t = .ok f' ∧ f'.members = ms :=
    (reread_iff h fun m hm => (hprintable m hm).line).2
      ⟨fun m hm => (hprintable m hm).quote, hone⟩
  refine ⟨vs, _, hvs, hnames, values_render h hprintable hone, hread, rfl, fun m hm hfree => ?_⟩
  have hcount : ms.count m.1 = f.members.count m.1 := Members.count_foldl_change hfree f.members
  have hmem : m.1 ∈ ms := by
    have hold : m.1 ∈ f.members := by
      rw [← hnames]
      exact List.mem_map_of_mem hm
    rwa [← List.count_pos_iff, hcount, List.count_pos_iff]
  refine ⟨hcount, List.mem_map.2 ⟨m.1, hmem, rfl⟩, fun hsame => ?_, fun hvalue => ?_⟩
  · obtain ⟨n, -, rfl⟩ := List.mem_map.1 hsame
    rfl
  · exact List.mem_map.2 ⟨m.1, hmem, Prod.ext rfl hvalue.symm⟩

/-- Members in both kinds of quotes, with other values than their names, and a comment. -/
theorem edited_values_of_values :
    let s := ("export enum TokenSymbol \x7b\n  '1INCH' = \x22inch\x22, // Old\n" ++
      "  BTC = 'BTC' \x7d").toList
    let steps : List (Action × Text) :=
      [(.add, "ETH".toList), (.remove, "BTC".toList), (.add, "BTC".toList), (.remove, "ETH".toList)]
    ∃ f vs ws, read .token s = .ok f ∧ (∀ m ∈ f.members, doubleQuote ∉ m) ∧
      (∀ step ∈ steps, Edit.isValidName step.2 = true) ∧
      (occurrences (header .token)
        { f with members := steps.foldl Members.change f.members }.render).length = 1 ∧
      values .token s = .ok vs ∧ values .token
        { f with members := steps.foldl Members.change f.members }.render = .ok ws ∧
      ∀ m ∈ vs, m.1 ∉ steps.map (·.2) → (m ∈ ws ↔ m.2 = m.1) := by
  intro s steps
  let f : EnumFile := ⟨.token, s.take 25, ["1INCH".toList, "BTC".toList], ['\x7d'], .standard⟩
  have hread : read .token s = .ok f := eq_ok_of_toOption (by decide +kernel)
  have hquote : ∀ m ∈ f.members, doubleQuote ∉ m := by decide
  have hsteps : ∀ step ∈ steps, Edit.isValidName step.2 = true := by decide
  have hone : (occurrences (header .token)
      { f with members := steps.foldl Members.change f.members }.render).length = 1 := by
    decide +kernel
  obtain ⟨vs, ws, hvs, -, hws, -, -, hall⟩ := edited_values hread hquote hsteps hone
  exact ⟨f, vs, ws, hread, hquote, hsteps, hone, hvs, hws,
    fun m hm hfree => (hall m hm hfree).2.2⟩

/-- A value that is not the name is lost. A name with a double quote is written so that it is not
read again, and a name can show a heading that the line hid before. -/
theorem edited_values_lost :
    let edited := fun s : Text => (read .token s).map fun f =>
      { f with members := [(Action.add, "ETH".toList)].foldl Members.change f.members }.render
    let s₁ := "export enum TokenSymbol \x7b\n  BTC = \x22bitcoin\x22\n\x7d\n".toList
    let t₁ := ("export enum TokenSymbol \x7b\n  BTC = \x22BTC\x22,\n" ++
      "  ETH = \x22ETH\x22\n\x7d\n").toList
    let s₂ := "export enum TokenSymbol \x7b\n  'a\x22b' = 'a'\n\x7d\n".toList
    let s₃ := ("export enum TokenSymbol \x7b\n  A = '\\', B = '//', " ++
      "'- export enum TokenSymbol \x7b' = ''\n\x7d\n").toList
    (edited s₁ = .ok t₁ ∧ values .token s₁ = .ok [("BTC".toList, "bitcoin".toList)] ∧
      values .token t₁ =
        .ok [("BTC".toList, "BTC".toList), ("ETH".toList, "ETH".toList)]) ∧
    (∃ t₂, edited s₂ = .ok t₂ ∧ ∀ f, read .token t₂ ≠ .ok f) ∧
    ∃ t₃, edited s₃ = .ok t₃ ∧ ∀ f, read .token t₃ ≠ .ok f := by
  intro edited s₁ t₁ s₂ s₃
  have hlost {s t : Text} (h : (edited s).toOption = some t)
      (hnone : (read .token t).toOption = none) :
      ∃ t, edited s = .ok t ∧ ∀ f, read .token t ≠ .ok f :=
    ⟨t, eq_ok_of_toOption h, fun f hf => by
      rw [hf] at hnone
      exact nomatch hnone⟩
  let t₂ := ("export enum TokenSymbol \x7b\n  ETH = \x22ETH\x22,\n" ++
    "  \x22a\x22b\x22 = \x22a\x22b\x22\n\x7d\n").toList
  let t₃ := ("export enum TokenSymbol \x7b\n  \x22- export enum TokenSymbol \x7b\x22 = " ++
    "\x22- export enum TokenSymbol \x7b\x22,\n  A = \x22A\x22,\n  B = \x22B\x22,\n" ++
    "  ETH = \x22ETH\x22\n\x7d\n").toList
  exact ⟨⟨eq_ok_of_toOption (by decide +kernel), eq_ok_of_toOption (by decide +kernel),
      eq_ok_of_toOption (by decide +kernel)⟩,
    hlost (t := t₂) (by decide +kernel) (by decide +kernel),
    hlost (t := t₃) (by decide +kernel) (by decide +kernel)⟩

end EnumFile
end IconCatalog
