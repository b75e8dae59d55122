import IconCatalog.Proofs.Enumeration.File
/-!
When a printed enumeration is read as the members that were printed. The reader keeps step with the
printer up to the first name with a double quote and takes only a part of that name.
-/
namespace IconCatalog
open Text Source

namespace Enumeration
variable {category : Category} {layout : Layout}

/-- In a name with a double quote, the first one is taken for its end. -/
theorem exists_memberText_of_quote {name : Text} (hline : '\n' ∉ name)
    (hquote : doubleQuote ∈ name) :
    ∃ x more, doubleQuote ∉ x ∧ '\n' ∉ x ∧
      memberText name = doubleQuote :: (x ++ doubleQuote :: more) := by
  have hid : ¬isIdentifier name = true := fun hid =>
    (isName_of_isIdentifier hid).not_mem (by decide) hquote
  obtain ⟨x, y, hname, hx⟩ := List.eq_append_cons_of_mem hquote
  refine ⟨x, y ++ doubleQuote :: ' ' :: '=' :: ' ' :: doubleQuote :: (name ++ [doubleQuote]),
    hx, ?_, ?_⟩
  · intro hmem
    exact hline (by rw [hname]; exact List.mem_append_left _ hmem)
  · rw [memberText, if_neg hid]
    conv => lhs; rw [hname]
    simp [hname]

theorem member?_of_quoted {x more name r : Text} (hquote : doubleQuote ∉ x) (hline : '\n' ∉ x)
    (h : member? (doubleQuote :: (x ++ doubleQuote :: more)) = some (name, r)) : name = x := by
  have hkey : key? (doubleQuote :: (x ++ doubleQuote :: more)) = some (x, more) := by
    refine key?_eq_some_iff.2 (.inl ?_)
    refine quoted?_eq_some_iff.2 ⟨doubleQuote, .inl rfl, rfl, ?_⟩
    intro c hc
    have hd : c ≠ doubleQuote := fun h => hquote (h ▸ hc)
    have hn : c ≠ '\n' := fun h => hline (h ▸ hc)
    simp [isInside, hd, hn]
  simp only [member?, hkey, Option.bind_eq_bind, Option.bind_some, Option.bind_eq_some_iff,
    Prod.exists, Option.some.injEq, Prod.mk.injEq] at h
  obtain ⟨t, -, content, u, -, hname, -⟩ := h
  exact hname.symm

theorem head_readAll_of_quote {name : Text} (hline : '\n' ∉ name) (hquote : doubleQuote ∈ name)
    (rest : Text) : (members.readAll (memberText name ++ rest)).1.head? ≠ some name := by
  obtain ⟨x, more, hx, hxline, htext⟩ := exists_memberText_of_quote hline hquote
  have hstart : memberText name ++ rest = doubleQuote :: (x ++ doubleQuote :: (more ++ rest)) := by
    rw [htext]
    simp
  have hskip : skipGap (doubleQuote :: (x ++ doubleQuote :: (more ++ rest))) =
      doubleQuote :: (x ++ doubleQuote :: (more ++ rest)) := skipGap_cons (by decide) _
  have hcomment : comment? (doubleQuote :: (x ++ doubleQuote :: (more ++ rest))) = none :=
    comment?_eq_none_of_head (by simp [doubleQuote])
  rw [hstart]
  cases hi : members.read? (doubleQuote :: (x ++ doubleQuote :: (more ++ rest))) with
  | none =>
    rw [readAll_of_none (by rw [hskip]; exact hcomment) (by rw [hskip]; exact hi)]
    simp
  | some found =>
    obtain ⟨n, r⟩ := found
    have hn : n = x := member?_of_quoted hx hxline hi
    rw [readAll_of_item (by rw [hskip]; exact hcomment) (by rw [hskip]; exact hi), List.head?_cons]
    intro hname
    rw [Option.some.inj hname] at hn
    exact hx (hn ▸ hquote)

theorem no_quote_of_readAll (hlayout : Layout.IsUsable layout.indent) {ms : Members}
    (hms : ∀ m ∈ ms, '\n' ∉ m) {after : Text}
    (h : (members.readAll (renderBody category ms layout ++ after)).1 = ms) :
    ∀ m ∈ ms, doubleQuote ∉ m := by
  cases hfind : ms.find? (doubleQuote ∈ ·) with
  | none => simpa using List.find?_eq_none.1 hfind
  | some m =>
    -- the members before the first name with a double quote are read as they are
    obtain ⟨hquote, as, bs, hsplit, has⟩ := List.find?_eq_some_iff_append.1 hfind
    subst hsplit
    rw [decide_eq_true_iff] at hquote
    let s := series category layout
    let rest := memberText m ++ (s.printFrom (some m) bs ++ after)
    have hprintable : ∀ a ∈ as, IsPrintable a := fun a ha =>
      ⟨hms a (List.mem_append_left _ ha), by simpa using has a ha⟩
    have hbody : IsBody IsMember (layout.indent ++ rest)
        (s.firstItems none as ++ s.between as.getLast? (some m)) (as.map id) :=
      Series.isBody_firstItems (isTidy_series category hlayout)
        (fun a ha => reads_member (hprintable a ha)) m
    have hcomma : char? ',' (skipGap (layout.indent ++ rest)) = none := by
      obtain ⟨x, more, -, -, htext⟩ := exists_memberText_of_quote (hms m (by simp)) hquote
      have hrest : rest =
          doubleQuote :: (x ++ doubleQuote :: more ++ (s.printFrom (some m) bs ++ after)) := by
        simp only [rest, htext, List.cons_append]
      rw [skipGap_append hlayout.isGap, hrest, skipGap_cons (by decide), char?_eq_none_iff]
      simp [doubleQuote]
    have hread := hbody.readAll_append members_reads hcomma
    have hprint : renderBody category (as ++ m :: bs) layout ++ after =
        s.firstItems none as ++ s.between as.getLast? (some m) ++ (layout.indent ++ rest) := by
      rw [renderBody_eq, Series.print_append, Series.lastItems]
      simp only [rest, s, series_style, series_item, List.head?_cons, List.append_assoc]
    rw [hprint, hread, List.map_id] at h
    rw [readAll_gap_append members hlayout.isGap] at h
    have hhead : (members.readAll rest).1.head? = some m := by
      rw [List.append_cancel_left h]
      rfl
    exact absurd hhead (head_readAll_of_quote (hms m (by simp)) hquote _)

end Enumeration

namespace EnumFile
open Enumeration
variable {category : Category} {s : Text} {f : EnumFile}

/-- With other members in it, a file is read as what was put into it if and only if no name has a
double quote and the new text shows one header. -/
theorem reread_iff (h : read category s = .ok f) {ms : Members} (hms : ∀ m ∈ ms, '\n' ∉ m) :
    (∃ f', read category { f with members := ms }.render = .ok f' ∧ f'.members = ms) ↔
    (∀ m ∈ ms, doubleQuote ∉ m) ∧
      (occurrences (Enumeration.header category) { f with members := ms }.render).length = 1 := by
  obtain ⟨rfl, hfile⟩ := read_eq_ok_iff.1 h
  have hone : (occurrences (Enumeration.header f.category) { f with members := ms }.render).length =
      1 ↔ IsSilent (Enumeration.header f.category) (f.head.foldl LineState.step .start)
        ((series f.category f.layout).print ms ++ f.tail) := by
    rw [render_eq]
    exact hfile.length_eq_one_iff
  rw [hone]
  constructor
  · intro ⟨f', hread, hmembers⟩
    rw [render_eq, read_eq_ok_iff] at hread
    obtain ⟨body, rest, hprint, htail, hbody, hsilent⟩ := FileKind.IsRead.reread hfile hread.2
    have hall := hbody.readAll members_reads (htail ▸ members_reads.stopsAt_brace rest)
    rw [← hprint, ← renderBody_eq, hmembers] at hall
    exact ⟨no_quote_of_readAll hfile.isUsable hms (congrArg Prod.fst hall), hsilent⟩
  · intro ⟨hquote, hsilent⟩
    have hread := hfile.print (fun m hm => ⟨hms m hm, hquote m hm⟩) hsilent
    exact ⟨_, read_render hread, rfl⟩

end EnumFile
end IconCatalog
