import IconCatalog.Proofs.ImageHelper.Opening
/-!
How far a definition goes. It ends with its semicolon if every line up to there is blank or
indented, and with its first line if an unindented line comes before the semicolon.
-/
namespace IconCatalog.ImageHelper
open Text Source
variable {o : Option Category}

/-- Every line but the first is indented or blank. -/
def IsIndented (t : Text) : Prop := ∀ u c v, t = u ++ '\n' :: c :: v → isBlank c = true

theorem nextStatement?_le {u v : Text} {c : Char} (hc : isBlank c = false) :
    ∃ n, nextStatement? (u ++ '\n' :: c :: v) = some n ∧ n ≤ u.length := by
  induction u with
  | nil => exact ⟨0, by simp [nextStatement?, hc], Nat.le_refl 0⟩
  | cons d u ih =>
    obtain ⟨n, hn, hle⟩ := ih
    rw [List.cons_append, nextStatement?]
    split
    · exact ⟨0, rfl, Nat.zero_le _⟩
    · exact ⟨n + 1, by rw [hn]; rfl, Nat.succ_le_succ hle⟩

theorem exists_of_nextStatement? {t : Text} {n : Nat} (h : nextStatement? t = some n) :
    ∃ u c v, t = u ++ '\n' :: c :: v ∧ isBlank c = false ∧ n = u.length := by
  induction t generalizing n with
  | nil => cases h
  | cons d t ih =>
    rw [nextStatement?] at h
    split at h
    · next hd =>
      obtain rfl := Option.some.inj h
      simp only [Bool.and_eq_true, decide_eq_true_eq] at hd
      obtain ⟨rfl, hhead⟩ := hd
      cases t with
      | nil => cases hhead
      | cons c v => exact ⟨[], c, v, rfl, by simpa using hhead, rfl⟩
    · obtain ⟨m, hm, rfl⟩ := Option.map_eq_some_iff.1 h
      obtain ⟨u, c, v, rfl, hc, rfl⟩ := ih hm
      exact ⟨d :: u, c, v, rfl, hc, rfl⟩

theorem nextStatement?_eq_none_iff {t : Text} : nextStatement? t = none ↔ IsIndented t := by
  constructor
  · intro h u c v ht
    cases hc : isBlank c with
    | true => rfl
    | false =>
      obtain ⟨n, hn, -⟩ := nextStatement?_le (u := u) (v := v) hc
      rw [← ht, h] at hn
      exact nomatch hn
  · intro h
    cases hn : nextStatement? t with
    | none => rfl
    | some n =>
      obtain ⟨u, c, v, ht, hc, -⟩ := exists_of_nextStatement? hn
      rw [h u c v ht] at hc
      exact nomatch hc

instance (t : Text) : Decidable (IsIndented t) := decidable_of_iff _ nextStatement?_eq_none_iff

theorem IsIndented.le_of_nextStatement? {t rest : Text} (ht : IsIndented t)
    (hlast : t.getLast? ≠ some '\n') {n : Nat} (h : nextStatement? (t ++ rest) = some n) :
    t.length ≤ n := by
  obtain ⟨u, c, v, hsplit, hc, rfl⟩ := exists_of_nextStatement? h
  refine Decidable.byContradiction fun hlt => ?_
  rcases List.append_eq_append_iff.1 hsplit with ⟨a, rfl, -⟩ | ⟨a, rfl, ha⟩
  · simp at hlt
  · cases a with
    | nil => simp at hlt
    | cons d a =>
      obtain ⟨rfl, hrest⟩ := List.cons.inj ha
      cases a with
      | nil => simp at hlast
      | cons e a =>
        obtain ⟨rfl, -⟩ := List.cons.inj hrest
        rw [ht u c a rfl] at hc
        exact nomatch hc

theorem firstLineLength_append (u rest : Text) :
    firstLineLength (u ++ '\n' :: rest) = firstLineLength u := by
  have htake : (u ++ '\n' :: rest).takeWhile (· ≠ '\n') = u.takeWhile (· ≠ '\n') := by
    induction u with
    | nil => simp
    | cons c u ih =>
      rw [List.cons_append, List.takeWhile_cons, List.takeWhile_cons, ih]
  rw [firstLineLength, htake, firstLineLength]

theorem firstLineLength_le (t : Text) : firstLineLength t ≤ t.length := by
  have hline := (List.takeWhile_prefix (fun c => decide (c ≠ '\n')) (l := t)).length_le
  unfold firstLineLength dropReturn
  split
  · rw [List.length_dropLast]
    omega
  · exact hline

theorem definitionLength_le {u v : Text} {c : Char} (hc : isBlank c = false) :
    definitionLength (u ++ '\n' :: c :: v) ≤ u.length := by
  obtain ⟨n, hn, hle⟩ := nextStatement?_le (u := u) (v := v) hc
  have hline : firstLineLength (u ++ '\n' :: c :: v) ≤ u.length := by
    rw [firstLineLength_append]
    exact firstLineLength_le u
  unfold definitionLength
  split
  · exact hline
  · next k hk =>
    rw [hn]
    split
    · exact hline
    · next hnot =>
      have hkn : k ≤ n := by simpa using hnot
      omega

/-- A text that is one whole statement. -/
def IsWhole (d : Text) : Prop := statementLength? d = some d.length

theorem IsWhole.exists_passes {d : Text} (h : IsWhole d) :
    ∃ x, d = x ++ [';'] ∧ Passes (· = ';') .outside 0 x := by
  obtain ⟨⟨x, rest⟩, hcut, hlength⟩ := Option.map_eq_some_iff.1 h
  obtain ⟨hd, hx, c, hc, -, hstop⟩ := cutAt?_eq_some_iff.1 hcut
  have hlen := congrArg List.length hd
  rw [List.length_append] at hlen
  cases rest with
  | nil => exact nomatch hc
  | cons e rest =>
    obtain rfl := Option.some.inj hc
    have hnil : rest = [] := by
      refine List.eq_nil_of_length_eq_zero ?_
      simp only [List.length_cons] at hlen hlength
      omega
    exact ⟨x, by rw [hd, hnil, of_decide_eq_true hstop], hx⟩

theorem IsWhole.statementLength? {d : Text} (h : IsWhole d) (rest : Text) :
    statementLength? (d ++ rest) = some d.length := by
  obtain ⟨x, rfl, hx⟩ := h.exists_passes
  have hcut : cutAt? (· = ';') .outside 0 (x ++ ([';'] ++ rest)) = some (x, [';'] ++ rest) :=
    cutAt?_of_passes hx ⟨';', rfl, by decide, by decide⟩
  rw [List.append_assoc, Source.statementLength?, hcut]
  simp

theorem IsWhole.getLast? {d : Text} (h : IsWhole d) : d.getLast? = some ';' := by
  obtain ⟨x, rfl, -⟩ := h.exists_passes
  simp

theorem firstLineLength_lt {t : Text} (h : ¬IsIndented t) : firstLineLength t < t.length := by
  rw [← nextStatement?_eq_none_iff] at h
  obtain ⟨n, hn⟩ := Option.ne_none_iff_exists'.1 h
  obtain ⟨u, c, v, rfl, -⟩ := exists_of_nextStatement? hn
  have hline := firstLineLength_le u
  rw [firstLineLength_append, List.length_append, List.length_cons]
  omega

theorem IsWhole.definitionLength {d : Text} (h : IsWhole d) (hd : IsIndented d) (rest : Text) :
    definitionLength (d ++ rest) = d.length := by
  have hnext : ¬(nextStatement? (d ++ rest)).any (· < d.length) = true := by
    cases hn : nextStatement? (d ++ rest) with
    | none => simp
    | some n =>
      have hle := hd.le_of_nextStatement? (by rw [h.getLast?]; decide) hn
      simpa using hle
  rw [ImageHelper.definitionLength, h.statementLength? rest]
  simp only [if_neg hnext]

theorem IsWhole.definitionLength_of_not {d : Text} (h : IsWhole d) (hd : ¬IsIndented d)
    (rest : Text) : ImageHelper.definitionLength (d ++ rest) = firstLineLength d := by
  rw [← nextStatement?_eq_none_iff] at hd
  obtain ⟨k, hk⟩ := Option.ne_none_iff_exists'.1 hd
  obtain ⟨u, c, v, rfl, hc, -⟩ := exists_of_nextStatement? hk
  obtain ⟨n, hn, hle⟩ := nextStatement?_le (u := u) (v := v ++ rest) hc
  have hnext : (nextStatement? (u ++ '\n' :: c :: v ++ rest)).any
      (· < (u ++ '\n' :: c :: v).length) = true := by
    rw [List.append_assoc, List.cons_append, List.cons_append, hn]
    simp only [Option.any_some, decide_eq_true_eq, List.length_append, List.length_cons]
    omega
  have hline : firstLineLength (u ++ '\n' :: c :: v ++ rest) =
      firstLineLength (u ++ '\n' :: c :: v) := by
    rw [List.append_assoc, List.cons_append, firstLineLength_append, firstLineLength_append]
  rw [ImageHelper.definitionLength, h.statementLength? rest]
  simp only [if_pos hnext, hline]

theorem mem_order (o : Option Category) : o ∈ order := by
  rcases o with _ | _ | _ | _ <;> decide

/-- One whole statement that defines `o`, with no other `export` in it. -/
structure IsDefinition (o : Option Category) (d : Text) : Prop where
  starts : (definitionOf (nameOf o) d).isSome
  whole : IsWhole d
  single : ¬"export".toList <:+: d.tail

/-- No definition starts in the text when `rest` follows it. -/
def IsFree (t rest : Text) : Prop :=
  ∀ m u v, t = u ++ v → v ≠ [] → definitionOf (nameOf m) (v ++ rest) = none

theorem isFree_cons_iff {c : Char} {t rest : Text} : IsFree (c :: t) rest ↔
    (∀ m ∈ order, definitionOf (nameOf m) (c :: (t ++ rest)) = none) ∧ IsFree t rest := by
  constructor
  · intro h
    exact ⟨fun m _ => h m [] (c :: t) rfl (List.cons_ne_nil c t),
      fun m u v huv hv => h m (c :: u) v (by rw [huv]; rfl) hv⟩
  · intro ⟨hfirst, hrest⟩ m u v huv hv
    cases u with
    | nil =>
      obtain rfl : c :: t = v := huv
      exact hfirst m (mem_order m)
    | cons d u => exact hrest m u v (List.cons.inj huv).2 hv

instance decidableIsFree : (t rest : Text) → Decidable (IsFree t rest)
  | [], _ => .isTrue fun _ _ _ huv hv => absurd (List.append_eq_nil_iff.1 huv.symm).2 hv
  | _ :: t, rest =>
    have := decidableIsFree t rest
    decidable_of_iff _ isFree_cons_iff.symm

theorem IsFree.isSilentBefore {t rest : Text} (h : IsFree t rest) (m : Option Category)
    (s : LineState) : IsSilentBefore (definitionOf (nameOf m)) s t rest :=
  fun u v huv hv _ => h m u v huv hv

theorem IsFree.append {a b rest : Text} (ha : IsFree a (b ++ rest)) (hb : IsFree b rest) :
    IsFree (a ++ b) rest := by
  intro m u v huv hv
  rcases List.append_eq_append_iff.1 huv with ⟨k, rfl, rfl⟩ | ⟨k, rfl, rfl⟩
  · exact hb m k v rfl hv
  · cases k with
    | nil => exact hb m [] b rfl hv
    | cons c k =>
      rw [List.append_assoc]
      exact ha m u (c :: k) rfl (List.cons_ne_nil c k)

theorem isFree_feed (rest : Text) : IsFree ['\n'] rest := by
  intro m u v huv hv
  have hinert : IsInert (definitionOf (nameOf m)) ['\n'] :=
    isInert_of_no_word definitionOf_starts (c := '\n') (by rw [← mentions_iff]; decide) rfl
      (by decide)
  exact hinert u v huv hv rest

theorem IsDefinition.starts_append {d : Text} (h : IsDefinition o d) (rest : Text) :
    (definitionOf (nameOf o) (d ++ rest)).isSome := by
  obtain ⟨r, hr⟩ := Option.isSome_iff_exists.1 h.starts
  obtain ⟨u, hu, rfl⟩ := exists_opening hr
  rw [List.append_assoc, List.cons_append, definitionOf_append hu]
  rfl

theorem IsDefinition.isFree_tail {d : Text} (h : IsDefinition o d) (rest : Text) :
    IsFree d.tail ('\n' :: rest) := by
  intro m u v huv hv
  cases hm : definitionOf (nameOf m) (v ++ '\n' :: rest) with
  | none => rfl
  | some r =>
    obtain ⟨more, hmore⟩ := definitionOf_starts hm
    rcases List.append_eq_append_iff.1 hmore with ⟨a, rfl, -⟩ | ⟨a, ha, hfeed⟩
    · exact absurd ⟨u, a, by rw [huv]; simp⟩ h.single
    · cases a with
      | nil => exact absurd ⟨u, [], by rw [huv, ha]; simp⟩ h.single
      | cons c a =>
        obtain ⟨rfl, -⟩ := List.cons.inj hfeed
        have hmem : '\n' ∈ "export".toList := by rw [ha]; simp
        exact absurd hmem (by decide)

theorem replacements_eq_singleton {source base : Text} {r : Replacement}
    (h : replacementOf? source (nameOf o) (lineOf base o) = some r)
    (hother : ∀ m, m ≠ o → replacementOf? source (nameOf m) (lineOf base m) = none) :
    replacements source base = [r] := by
  have hone {os : List (Option Category)} (hos : os.Nodup) : os.filterMap
      (fun m => replacementOf? source (nameOf m) (lineOf base m)) = if o ∈ os then [r] else [] := by
    induction os with
    | nil => rfl
    | cons m os ih =>
      obtain ⟨hm, hos⟩ := List.nodup_cons.1 hos
      by_cases hmo : m = o
      · subst hmo
        rw [List.filterMap_cons, h, ih hos, if_neg hm, if_pos List.mem_cons_self]
      · rw [List.filterMap_cons, hother m hmo, ih hos]
        simp [Ne.symm hmo]
  rw [replacements_eq, hone (by decide), if_pos (mem_order o)]
  rfl

theorem admits_of_line {pre : Text} (h : pre = [] ∨ pre.getLast? = some '\n') :
    (pre.foldl LineState.step .start).admits = true := by
  rcases h with rfl | hlast
  · rfl
  · obtain ⟨x, rfl⟩ := List.getLast?_eq_some_iff.1 hlast
    rw [foldl_step_newline]
    rfl

section
variable {d pre post : Text} (hd : IsDefinition o d)
include hd

theorem IsDefinition.exists_found (hstart : pre = [] ∨ pre.getLast? = some '\n')
    (hpre : IsFree pre (d ++ '\n' :: post)) :
    ∃ found, firstOccurrence? (definitionOf (nameOf o)) (pre ++ (d ++ '\n' :: post)) =
      some found ∧ found.start = pre.length := by
  have hne : d ++ '\n' :: post ≠ [] := by simp
  obtain ⟨r, hr⟩ := Option.isSome_iff_exists.1 (hd.starts_append ('\n' :: post))
  exact ⟨_, firstOccurrence?_of_match (hpre.isSilentBefore o .start) hne (admits_of_line hstart) hr,
    rfl⟩

theorem IsDefinition.not_found (hpre : IsFree pre (d ++ '\n' :: post))
    (hpost : IsFree post []) {m : Option Category} (hm : m ≠ o) :
    firstOccurrence? (definitionOf (nameOf m)) (pre ++ (d ++ '\n' :: post)) = none := by
  have hdne : d ≠ [] := by
    obtain ⟨x, rfl, -⟩ := hd.whole.exists_passes
    simp
  have hinner : IsFree (d.tail ++ (['\n'] ++ post)) [] :=
    (hd.isFree_tail _).append ((isFree_feed _).append hpost)
  have hnone : definitionOf (nameOf m) (d ++ '\n' :: post) = none := by
    cases hmatch : definitionOf (nameOf m) (d ++ '\n' :: post) with
    | none => rfl
    | some r =>
      exact absurd (eq_of_definitionOf (by rw [hmatch]; rfl) (hd.starts_append ('\n' :: post))) hm
  rw [firstOccurrence?_eq_none_iff]
  intro u v huv hv _
  -- a match would start in front of the definition, with it, or behind its first character
  rcases List.append_eq_append_iff.1 huv with ⟨k, rfl, hk⟩ | ⟨k, rfl, rfl⟩
  · cases k with
    | nil => rwa [← show d ++ '\n' :: post = v from hk]
    | cons c k =>
      have htail := congrArg List.tail hk
      rw [List.tail_append_of_ne_nil hdne] at htail
      have hfree := hinner m k v (by simpa using htail) hv
      rwa [List.append_nil] at hfree
  · cases k with
    | nil => exact hnone
    | cons c k => exact hpre m u (c :: k) rfl (List.cons_ne_nil c k)

theorem IsDefinition.retarget_eq (base : Text) (hstart : pre = [] ∨ pre.getLast? = some '\n')
    (hpre : IsFree pre (d ++ '\n' :: post)) (hpost : IsFree post []) :
    retarget (pre ++ (d ++ '\n' :: post)) base = .ok (pre ++ (lineOf base o ++
      (d ++ '\n' :: post).drop (definitionLength (d ++ '\n' :: post))), 1) := by
  obtain ⟨found, hfound, hat⟩ := hd.exists_found hstart hpre
  have hone : replacementOf? (pre ++ (d ++ '\n' :: post)) (nameOf o) (lineOf base o) = some
      ⟨⟨pre.length, pre.length + definitionLength (d ++ '\n' :: post)⟩, lineOf base o⟩ := by
    rw [replacementOf?, hfound, Option.map_some, hat, List.drop_left]
  have hall : replacements (pre ++ (d ++ '\n' :: post)) base = [_] :=
    replacements_eq_singleton hone fun m hm => by
      rw [replacementOf?, hd.not_found hpre hpost hm, Option.map_none]
  rw [retarget_of_replacements hall (List.cons_ne_nil _ _)]
  simp [splice, List.drop_append]

end

/-- A definition that stands alone, at the start of a line, is replaced whole exactly if each of its
lines behind the first is indented or blank. Otherwise its first line is replaced. -/
theorem retarget_definition {d pre post base : Text} (hd : IsDefinition o d)
    (hstart : pre = [] ∨ pre.getLast? = some '\n') (hpre : IsFree pre (d ++ '\n' :: post))
    (hpost : IsFree post []) :
    let source := pre ++ (d ++ '\n' :: post)
    (retarget source base = .ok (pre ++ (lineOf base o ++ '\n' :: post), 1) ↔ IsIndented d) ∧
    (¬IsIndented d → retarget source base =
      .ok (pre ++ (lineOf base o ++ (d.drop (firstLineLength d) ++ '\n' :: post)), 1)) := by
  intro source
  have hresult : retarget source base = .ok (pre ++ (lineOf base o ++
      (d ++ '\n' :: post).drop (definitionLength (d ++ '\n' :: post))), 1) :=
    hd.retarget_eq base hstart hpre hpost
  have hnot (h : ¬IsIndented d) : retarget source base =
      .ok (pre ++ (lineOf base o ++ (d.drop (firstLineLength d) ++ '\n' :: post)), 1) := by
    rw [hresult, hd.whole.definitionLength_of_not h,
      List.drop_append_of_le_length (firstLineLength_le d)]
  refine ⟨⟨fun h => ?_, fun h => ?_⟩, hnot⟩
  · -- the rest of the definition would have to be empty, but its first line is not all of it
    refine Decidable.byContradiction fun hindent => ?_
    have hlt := firstLineLength_lt hindent
    rw [hnot hindent] at h
    have hrest := List.append_cancel_left (List.append_cancel_left
      (Prod.mk.inj (Except.ok.inj h)).1)
    have hlength := congrArg List.length hrest
    simp only [List.length_append, List.length_drop] at hlength
    omega
  · rw [hresult, hd.whole.definitionLength h, List.drop_left]

/-- A wrapped helper with a semicolon in its literal, with a comment in front of it. -/
theorem retarget_definition_wrapped :
    let pre := "// images\n".toList
    let d := "export const baseImgUrlToken = (n) =>\n  `a;$\x7bn\x7d`;".toList
    let post := "type T = 1;\n".toList
    let base := "//cdn".toList
    let source := pre ++ (d ++ '\n' :: post)
    IsDefinition (some .token) d ∧ pre.getLast? = some '\n' ∧ IsFree pre (d ++ '\n' :: post) ∧
    IsFree post [] ∧ IsIndented d ∧
    (retarget source base = .ok (pre ++ (lineOf base (some .token) ++ '\n' :: post), 1) ↔
      IsIndented d) ∧
    (¬IsIndented d → retarget source base = .ok (pre ++ (lineOf base (some .token) ++
      (d.drop (firstLineLength d) ++ '\n' :: post)), 1)) := by
  intro pre d post base source
  have hd : IsDefinition (some .token) d :=
    ⟨by decide +kernel, show statementLength? d = some d.length by decide +kernel,
      by rw [← mentions_iff]; decide +kernel⟩
  have hpre : IsFree pre (d ++ '\n' :: post) := by decide +kernel
  have hpost : IsFree post [] := by decide +kernel
  exact ⟨hd, by decide +kernel, hpre, hpost, by decide +kernel,
    retarget_definition hd (.inr (by decide +kernel)) hpre hpost⟩

/-- Of a definition with its closing brace at the start of a line, the body and the brace stay
behind. A type without an equals sign before a definition takes it for its own. -/
theorem retarget_leaves_unindented :
    let base := "//cdn".toList
    let post := "type T = 1;\n".toList
    let d := "export const baseImgUrlToken = (n) => \x7b\n  return n;\n\x7d;".toList
    let pre := "export const baseImgUrl: string\n".toList
    let plain := "export const baseImgUrlToken = 1;".toList
    let line := lineOf base (some .token)
    (IsDefinition (some .token) d ∧ IsFree post [] ∧ retarget (d ++ '\n' :: post) base =
      .ok (line ++ ("\n  return n;\n\x7d;".toList ++ '\n' :: post), 1)) ∧
    (IsDefinition (some .token) plain ∧ IsFree pre [] ∧
      retarget (pre ++ (plain ++ '\n' :: post)) base =
        .ok (baseDefinition base ++ '\n' :: (line ++ '\n' :: post), 2)) := by
  refine ⟨⟨⟨by decide +kernel, show statementLength? _ = some _ by decide +kernel,
      by rw [← mentions_iff]; decide +kernel⟩, by decide +kernel,
      eq_ok_of_toOption (by decide +kernel)⟩,
    ⟨⟨by decide +kernel, show statementLength? _ = some _ by decide +kernel,
      by rw [← mentions_iff]; decide +kernel⟩, by decide +kernel,
      eq_ok_of_toOption (by decide +kernel)⟩⟩

end IconCatalog.ImageHelper
