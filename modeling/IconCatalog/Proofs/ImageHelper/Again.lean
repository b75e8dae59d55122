import IconCatalog.Command.Update
import IconCatalog.Proofs.ImageHelper.Settled
/-!
Pointing the helpers at the same base again. A second run leaves the text as it is exactly if each
definition that it finds is the line that it would write. What stands behind a definition on its
line can keep the first run from leaving such a text.
-/
namespace IconCatalog.ImageHelper
open Text Source
variable {source base t : Text} {o : Option Category}

/-- Every definition that is found is the line for the base. -/
def IsPointed (base t : Text) : Prop :=
  ∀ o found, firstOccurrence? (definitionOf (nameOf o)) t = some found →
    lineOf base o <+: t.drop found.start

theorem splice_eq_drop_iff {rs : List Replacement} {position : Nat}
    (hfront : rs.Pairwise Replacement.InFront)
    (hposition : ∀ r ∈ rs, position ≤ r.span.start)
    (hwhole : ∀ r ∈ rs, r.text <+: source.drop r.span.start →
      r.span.stop = r.span.start + r.text.length) :
    splice source position rs = source.drop position ↔
      ∀ r ∈ rs, r.text <+: source.drop r.span.start := by
  induction rs generalizing position with
  | nil => simp [splice]
  | cons r rs ih =>
    obtain ⟨hr, hrs⟩ := List.pairwise_cons.1 hfront
    obtain ⟨hstart, -⟩ := List.forall_mem_cons.1 hposition
    obtain ⟨hstop, hwhole⟩ := List.forall_mem_cons.1 hwhole
    have ih := ih hrs (fun s hs => hr s hs) hwhole
    rw [List.forall_mem_cons, ← ih, splice, List.append_assoc, drop_eq_append hstart source,
      List.append_cancel_left_eq]
    have hdrop : ∀ rest, r.text ++ rest = source.drop r.span.start →
        source.drop r.span.stop = rest := by
      intro rest hrest
      rw [hstop ⟨rest, hrest⟩, ← List.drop_drop, ← hrest, List.drop_left]
    constructor
    · intro h
      exact ⟨⟨_, h⟩, (hdrop _ h).symm⟩
    · rintro ⟨⟨rest, hrest⟩, h⟩
      rw [h, hdrop rest hrest, hrest]

theorem replacements_eq_nil_iff : replacements source base = [] ↔
    ∀ o, firstOccurrence? (definitionOf (nameOf o)) source = none := by
  constructor
  · intro h o
    cases hfound : firstOccurrence? (definitionOf (nameOf o)) source with
    | none => rfl
    | some found =>
      obtain ⟨r, hr⟩ := exists_replacementOf? base hfound
      have hmem := mem_replacements_iff.2 ⟨o, hr⟩
      rw [h] at hmem
      cases hmem
  · intro h
    refine List.eq_nil_iff_forall_not_mem.2 fun r hr => ?_
    obtain ⟨o, ho⟩ := mem_replacements_iff.1 hr
    rw [replacementOf?, h o] at ho
    cases ho

theorem stop_eq_of_prefix (hbase : IsAddress base) {r : Replacement}
    (hr : r ∈ replacements source base) (hline : r.text <+: source.drop r.span.start) :
    r.span.stop = r.span.start + r.text.length := by
  obtain ⟨o, ho⟩ := mem_replacements_iff.1 hr
  obtain ⟨found, -, rfl⟩ := Option.map_eq_some_iff.1 ho
  obtain ⟨rest, hrest⟩ := hline
  show found.start + definitionLength (source.drop found.start) = _
  rw [← hrest, definitionLength_append (isStatement_line hbase o)]

theorem pairwise_of_prefix (hbase : IsAddress base)
    (hlines : ∀ r ∈ replacements source base, r.text <+: source.drop r.span.start) :
    (replacements source base).Pairwise Replacement.InFront := by
  refine pairwise_replacements fun o m r s hne hr hs hle => ?_
  have hmem := mem_replacements_iff.2 ⟨o, hr⟩
  obtain ⟨rest, hline⟩ := hlines r hmem
  rw [Replacement.InFront, stop_eq_of_prefix hbase hmem ⟨rest, hline⟩]
  obtain ⟨u, v, x, hu, -, -, -, rfl⟩ := exists_of_replacementOf? hr
  obtain ⟨u', v', x', hu', hm, -, -, rfl⟩ := exists_of_replacementOf? hs
  obtain rfl : lineOf base o ++ rest = v := by rw [hline, hu, List.drop_left]
  refine Decidable.byContradiction fun hlt => ?_
  have hnone : definitionOf (nameOf m) v' = none := by
    rcases List.append_eq_append_iff.1 (hu.symm.trans hu') with ⟨k, rfl, hk⟩ | ⟨k, rfl, rfl⟩
    · rcases List.append_eq_append_iff.1 hk with ⟨l, rfl, -⟩ | ⟨l, hl, rfl⟩
      · simp only [List.length_append] at hlt
        omega
      · refine isInert_lineOf hbase (Ne.symm hne) k l hl ?_ rest
        rintro rfl
        rw [List.append_nil] at hl
        simp only [hl, List.length_append] at hlt
        omega
    · simp only [List.length_append] at hle
      obtain rfl : k = [] := List.eq_nil_of_length_eq_zero (by omega)
      exact definitionOf_line_of_ne base rest (Ne.symm hne)
  rw [hnone] at hm
  exact nomatch hm

/-- A run changes nothing exactly if each definition that is found is the line it would write. -/
theorem retarget_eq_self_iff (hbase : IsAddress base) (hne : replacements t base ≠ []) :
    ((∃ m, retarget t base = .ok (t, m)) ∧
        (replacements t base).Pairwise Replacement.InFront) ↔ IsPointed base t := by
  have hlines : IsPointed base t ↔
      ∀ r ∈ replacements t base, r.text <+: t.drop r.span.start := by
    constructor
    · intro h r hr
      obtain ⟨o, ho⟩ := mem_replacements_iff.1 hr
      obtain ⟨found, hfound, rfl⟩ := Option.map_eq_some_iff.1 ho
      exact h o found hfound
    · intro h o found hfound
      exact h _ (mem_replacements_iff.2 ⟨o, by rw [replacementOf?, hfound]; rfl⟩)
  have hresult : retarget t base =
      .ok (splice t 0 (replacements t base), (replacements t base).length) :=
    retarget_of_replacements rfl hne
  have hiff (hfront : (replacements t base).Pairwise Replacement.InFront) :
      splice t 0 (replacements t base) = t.drop 0 ↔
        ∀ r ∈ replacements t base, r.text <+: t.drop r.span.start :=
    splice_eq_drop_iff hfront (fun r _ => Nat.zero_le _) fun r hr => stop_eq_of_prefix hbase hr
  rw [hlines]
  constructor
  · rintro ⟨⟨m, h⟩, hfront⟩
    rw [hresult] at h
    exact (hiff hfront).1 (Prod.mk.inj (Except.ok.inj h)).1
  · intro h
    have hfront := pairwise_of_prefix hbase h
    rw [hresult, (hiff hfront).2 h]
    exact ⟨⟨_, rfl⟩, hfront⟩

theorem foldl_step_line (s : LineState) (t : Text) (newline : Newline) :
    (t ++ newline.text).foldl LineState.step s = .start := by
  cases newline with
  | lf => exact foldl_step_newline s t
  | crlf =>
    rw [show t ++ Newline.crlf.text = t ++ ['\r'] ++ ['\n'] by simp [Newline.text]]
    exact foldl_step_newline s _

theorem isInert_newline (newline : Newline) :
    IsInert (definitionOf (nameOf o)) newline.text := by
  cases newline with
  | lf =>
    exact isInert_of_no_word definitionOf_starts (c := '\n') (by rw [← mentions_iff]; decide) rfl
      (by decide)
  | crlf =>
    exact isInert_of_no_word definitionOf_starts (c := '\n') (by rw [← mentions_iff]; decide) rfl
      (by decide)

theorem isInert_lines (hbase : IsAddress base) (newline : Newline) {os : List (Option Category)}
    (hos : ∀ m ∈ os, o ≠ m) : IsInert (definitionOf (nameOf o))
      (os.flatMap (lineOf base · ++ newline.text)) := by
  induction os with
  | nil => exact isInert_nil
  | cons m os ih =>
    obtain ⟨hm, hos⟩ := List.forall_mem_cons.1 hos
    exact ((isInert_lineOf hbase hm).append (isInert_newline newline)).append (ih hos)

theorem firstOccurrence?_of_lines (hbase : IsAddress base) {u v : Text}
    (hsilent : IsSilentBefore (definitionOf (nameOf o)) .start u v)
    (hs : (lineState u).admits = true) (hv : Opens v) (newline : Newline) (behind : Text) :
    ∃ found, firstOccurrence? (definitionOf (nameOf o))
        (u ++ (definitions base newline ++ behind)) = some found ∧
      lineOf base o <+: (u ++ (definitions base newline ++ behind)).drop found.start := by
  have hnodup : order.Nodup := by decide
  obtain ⟨before, after, horder⟩ := List.append_of_mem (mem_order o)
  rw [horder] at hnodup
  have hbefore : ∀ m ∈ before, o ≠ m := by
    rintro m hm rfl
    exact (List.nodup_append.1 hnodup).2.2 o hm o List.mem_cons_self rfl
  let lines := before.flatMap (lineOf base · ++ newline.text)
  let rest := newline.text ++ (after.flatMap (lineOf base · ++ newline.text) ++ behind)
  have hsplit : u ++ (definitions base newline ++ behind) =
      u ++ lines ++ (lineOf base o ++ rest) := by
    rw [definitions_eq, horder]
    simp [lines, rest]
  have hlines : IsInert (definitionOf (nameOf o)) lines := isInert_lines hbase newline hbefore
  have hopens : Opens (lines ++ (lineOf base o ++ rest)) := by
    cases before with
    | nil => exact opens_line base o rest
    | cons m before =>
      have hopens := opens_line base m (newline.text ++
        (before.flatMap (lineOf base · ++ newline.text) ++ (lineOf base o ++ rest)))
      simpa [lines] using hopens
  have hstate : (lineState (u ++ lines)).admits = true := by
    rcases List.eq_nil_or_concat before with rfl | ⟨ms, m, rfl⟩
    · simpa [lines] using hs
    · have hlast : u ++ lines =
          u ++ ms.flatMap (lineOf base · ++ newline.text) ++ lineOf base m ++ newline.text := by
        simp [lines, List.concat_eq_append]
      rw [hlast, lineState, foldl_step_line]
      rfl
  have hagree : Agree .start .start (u ++ v) := .inl rfl
  have hfirst := isSilentBefore_of_agree hsilent hagree (.inr ⟨hv, hopens⟩)
  obtain ⟨y, hy⟩ := Option.isSome_iff_exists.1 (definitionOf_line base rest o)
  have hall := isSilentBefore_append_iff.2
    ⟨hfirst, hlines.isSilentBefore (lineState u) (lineOf base o ++ rest)⟩
  rw [hsplit]
  refine ⟨_, firstOccurrence?_of_match hall (opens_line base o rest).ne_nil hstate hy, ?_⟩
  rw [List.drop_left]
  exact List.prefix_append _ _

theorem length_replacements_eq (source base : Text) : (replacements source base).length =
    order.countP fun o => (firstOccurrence? (definitionOf (nameOf o)) source).isSome := by
  rw [length_replacements, List.length_filterMap_eq_countP]
  congr 1
  funext o
  rw [replacementOf?, Option.isSome_map]

theorem exists_of_retarget {n : Nat} (h : retarget source base = .ok (t, n))
    (hnil : replacements source base = []) :
    ∃ u v, source = u ++ v ∧ (lineState u).admits = true ∧ Opens v ∧
      (∀ o, IsSilentBefore (definitionOf (nameOf o)) .start u v) ∧ n = 0 ∧
      t = u ++ (definitions base (Newline.detect source) ++
        ((Newline.detect source).text ++ v)) := by
  rw [retarget, hnil] at h
  cases hheader : firstOccurrence? Table.header source with
  | none =>
    rw [hheader] at h
    cases h
  | some header =>
    rw [hheader] at h
    obtain ⟨rfl, rfl⟩ := Prod.mk.inj (Except.ok.inj h)
    obtain ⟨u, v, r, rfl, -, hs, hm, -, hstart⟩ := exists_of_firstOccurrence? hheader
    refine ⟨u, v, rfl, hs, opens_of_header hm, fun o => ?_, rfl, ?_⟩
    · have hsilent := firstOccurrence?_eq_none_iff.1 (replacements_eq_nil_iff.1 hnil o)
      have hboth := isSilentBefore_append_iff.1 (isSilentBefore_nil_iff.2 hsilent)
      simpa using hboth.1
    · rw [hstart, List.take_left, List.drop_left]
      simp only [List.append_assoc]

theorem replacements_ne_nil_of_retarget (hbase : IsAddress base) {n : Nat}
    (h : retarget source base = .ok (t, n))
    (hfront : (replacements source base).Pairwise Replacement.InFront) :
    replacements t base ≠ [] := by
  rw [Ne, replacements_eq_nil_iff]
  intro hnone
  by_cases hnil : replacements source base = []
  · obtain ⟨u, v, rfl, hs, hv, hsilent, -, rfl⟩ := exists_of_retarget h hnil
    obtain ⟨found, hfound, -⟩ := firstOccurrence?_of_lines hbase (hsilent none) hs hv
      (Newline.detect (u ++ v)) ((Newline.detect (u ++ v)).text ++ v)
    rw [hnone none] at hfound
    exact nomatch hfound
  · obtain ⟨hrw, -⟩ := rewrites_of_retarget h hnil hfront
    obtain ⟨r, rs, hlist⟩ := List.exists_cons_of_ne_nil hnil
    rw [hlist, ← List.nil_append (r :: rs)] at hrw
    -- nothing in front of the first replaced span has changed
    obtain ⟨a, old, b, a', b', ha, rfl, hkept, hspan⟩ := hrw.split
    cases hkept with
    | keep =>
      rw [Nat.zero_add] at hspan
      obtain ⟨o, htext, -, hs, -⟩ :=
        exists_of_mem_replacements (by rw [hlist]; exact List.mem_cons_self) ha hspan
      obtain ⟨y, hy⟩ := Option.isSome_iff_exists.1 (definitionOf_line base b' o)
      rw [htext] at hnone
      exact firstOccurrence?_ne_none (opens_line base o b').ne_nil hs hy (hnone o)

theorem isPointed_of_lines (hbase : IsAddress base) {n : Nat}
    (h : retarget source base = .ok (t, n)) (hnil : replacements source base = []) :
    IsPointed base t ∧ (replacements t base).length = order.length ∧ n = 0 := by
  obtain ⟨u, v, rfl, hs, hv, hsilent, rfl, rfl⟩ := exists_of_retarget h hnil
  have hfound o := firstOccurrence?_of_lines hbase (hsilent o) hs hv
    (Newline.detect (u ++ v)) ((Newline.detect (u ++ v)).text ++ v)
  refine ⟨fun o found ho => ?_, ?_, rfl⟩
  · obtain ⟨found', hfound', hline⟩ := hfound o
    rw [ho] at hfound'
    rwa [Option.some.inj hfound']
  · rw [length_replacements_eq, List.countP_eq_length]
    intro o _
    obtain ⟨found, hfound, -⟩ := hfound o
    rw [hfound]
    rfl

/-- After settled replacements, exactly the definitions of the source are found, each as the line
for the base. -/
theorem isPointed_of_rewrites (hbase : IsAddress base)
    (hrw : Rewrites 0 source (replacements source base) t)
    (hsettled : ∀ r ∈ replacements source base, r.IsSettled source) :
    IsPointed base t ∧ ∀ o, (firstOccurrence? (definitionOf (nameOf o)) t).isSome =
      (firstOccurrence? (definitionOf (nameOf o)) source).isSome := by
  have hfound := firstOccurrence?_of_rewrites hbase hrw hsettled
  refine ⟨fun o found' ho => ?_, fun o => ?_⟩
  · cases hsource : firstOccurrence? (definitionOf (nameOf o)) source with
    | none =>
      rw [(hfound o).1 hsource] at ho
      cases ho
    | some found =>
      obtain ⟨found'', hfound', hline⟩ := (hfound o).2 found hsource
      rw [ho] at hfound'
      rwa [Option.some.inj hfound']
  · cases hsource : firstOccurrence? (definitionOf (nameOf o)) source with
    | none => rw [(hfound o).1 hsource]
    | some found =>
      obtain ⟨found', hfound', -⟩ := (hfound o).2 found hsource
      rw [hfound']
      rfl

/-- A second run leaves the text of the first one as it is exactly if every definition that it finds
there is the line for the base. It is so if the lines behind the replaced spans are read as before,
and then what was no definition for the first run is none for the second one. -/
theorem retarget_again_iff (hbase : IsAddress base) {n : Nat}
    (h : retarget source base = .ok (t, n))
    (hfront : (replacements source base).Pairwise Replacement.InFront) :
    (((∃ m, retarget t base = .ok (t, m)) ∧
      (replacements t base).Pairwise Replacement.InFront) ↔ IsPointed base t) ∧
    ((∀ r ∈ replacements source base, r.IsSettled source) →
      retarget t base = .ok (t, if n = 0 then order.length else n) ∧
      (replacements t base).Pairwise Replacement.InFront ∧
      (n ≠ 0 → ∀ o, (firstOccurrence? (definitionOf (nameOf o)) t).isSome =
        (firstOccurrence? (definitionOf (nameOf o)) source).isSome)) := by
  have hne := replacements_ne_nil_of_retarget hbase h hfront
  have hiff := retarget_eq_self_iff hbase hne
  have hcount {m : Nat} (hagain : retarget t base = .ok (t, m)) :
      m = (replacements t base).length := by
    rw [retarget_of_replacements rfl hne] at hagain
    exact (Prod.mk.inj (Except.ok.inj hagain)).2.symm
  refine ⟨hiff, fun hsettled => ?_⟩
  by_cases hnil : replacements source base = []
  · obtain ⟨hpointed, hlength, rfl⟩ := isPointed_of_lines hbase h hnil
    obtain ⟨⟨m, hagain⟩, hfront'⟩ := hiff.2 hpointed
    refine ⟨?_, hfront', fun hzero => absurd rfl hzero⟩
    rw [if_pos rfl, hagain, hcount hagain, hlength]
  · obtain ⟨hrw, rfl⟩ := rewrites_of_retarget h hnil hfront
    obtain ⟨hpointed, hsame⟩ := isPointed_of_rewrites hbase hrw hsettled
    obtain ⟨⟨m, hagain⟩, hfront'⟩ := hiff.2 hpointed
    refine ⟨?_, hfront', fun _ => hsame⟩
    have hpos := List.length_pos_iff.2 hnil
    rw [if_neg (by omega), hagain, hcount hagain, length_replacements_eq t,
      length_replacements_eq source]
    simp only [hsame]

theorem isAddress_hostedBase : IsAddress Command.hostedBase :=
  ⟨by decide, by decide, by decide, by decide, by rw [← mentions_iff]; decide⟩

/-- Two definitions on one line, with a third one in the comment behind them. -/
theorem retarget_again_iff_one_line :
    let base := Command.hostedBase
    let source := ("export const baseImgUrl = 1; export const baseImgUrlToken = 2; " ++
      "// export const baseImgUrlWallet = 3;\n").toList
    let t := baseDefinition base ++ ' ' :: (helperDefinition .token ++
      " // export const baseImgUrlWallet = 3;\n".toList)
    retarget source base = .ok (t, 2) ∧
    (replacements source base).Pairwise Replacement.InFront ∧
    (∀ r ∈ replacements source base, r.IsSettled source) ∧
    IsPointed base t ∧ retarget t base = .ok (t, 2) ∧
    (firstOccurrence? (definitionOf (nameOf (some .wallet))) t).isSome =
      (firstOccurrence? (definitionOf (nameOf (some .wallet))) source).isSome := by
  intro base source t
  have hfirst : retarget source base = .ok (t, 2) := eq_ok_of_toOption (by decide +kernel)
  have hfront : (replacements source base).Pairwise Replacement.InFront := by decide +kernel
  have hstates : ∀ r ∈ replacements source base, lineState (source.take r.span.stop) =
      lineState (source.take r.span.start ++ r.text) := by
    decide +kernel
  have hsettled : ∀ r ∈ replacements source base, r.IsSettled source :=
    fun r hr => .inl (hstates r hr)
  obtain ⟨hiff, hagain⟩ := retarget_again_iff isAddress_hostedBase hfirst hfront
  obtain ⟨hresult, hfront', hsame⟩ := hagain hsettled
  exact ⟨hfirst, hfront, hsettled, hiff.1 ⟨⟨_, hresult⟩, hfront'⟩, hresult,
    hsame (by decide) (some .wallet)⟩

/-- A semicolon in a comment ends the statement, so that the definition behind it in the comment is
live after the first run, and the second run replaces it. -/
theorem retarget_again_uncomments :
    let base := Command.hostedBase
    let source :=
      "export const baseImgUrl = 1 // was; export const baseImgUrlToken = 2;\n".toList
    let t := baseDefinition base ++ " export const baseImgUrlToken = 2;\n".toList
    let t' := baseDefinition base ++ ' ' :: (helperDefinition .token ++ ['\n'])
    retarget source base = .ok (t, 1) ∧
    (replacements source base).Pairwise Replacement.InFront ∧
    firstOccurrence? (definitionOf (nameOf (some .token))) source = none ∧
    (firstOccurrence? (definitionOf (nameOf (some .token))) t).isSome = true ∧
    retarget t base = .ok (t', 2) ∧ t' ≠ t := by
  intro base source t t'
  exact ⟨eq_ok_of_toOption (by decide +kernel), by decide +kernel, by decide +kernel,
    by decide +kernel, eq_ok_of_toOption (by decide +kernel), by decide +kernel⟩

end IconCatalog.ImageHelper
