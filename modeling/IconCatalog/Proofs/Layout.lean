import IconCatalog.Layout
import IconCatalog.Proofs.Text.Blank
import IconCatalog.Proofs.Text.Search
/-!
The layout that is read off a file: the lines of a text that ends them one way, the first line that
holds an entry or a comment, and the indent of that line.
-/
namespace IconCatalog
open Text

def IsLine (l : Text) : Prop := '\n' ∉ l ∧ l.getLast? ≠ some '\r'

theorem isLine_nil : IsLine [] := ⟨by simp, by simp⟩

theorem isLine_comment {indent note : Text} (hindent : ∀ c ∈ indent, c = ' ' ∨ c = '\t')
    (hnote : ∀ c ∈ note, Source.isLineEnd c = false) :
    IsLine (indent ++ Source.commentMark ++ note) := by
  have hfree {c : Char} (hc : Source.isLineEnd c = true) (hspace : c ≠ ' ') (htab : c ≠ '\t')
      (hslash : c ∉ Source.commentMark) : c ∉ indent ++ Source.commentMark ++ note := by
    simp only [List.mem_append, not_or]
    refine ⟨⟨fun h => (hindent c h).elim hspace htab, hslash⟩, fun h => ?_⟩
    rw [hnote c h] at hc
    exact absurd hc (by simp)
  exact ⟨hfree (by decide) (by decide) (by decide) (by decide), fun h =>
    hfree (by decide) (by decide) (by decide) (by decide) (List.mem_of_getLast? h)⟩

theorem Text.dropReturn_of_isLine {l : Text} (h : IsLine l) : dropReturn l = l := by
  rw [dropReturn, if_neg h.2]

theorem Text.lines_append {l : Text} (hl : '\n' ∉ l) (t : Text) :
    lines (l ++ '\n' :: t) = dropReturn l :: lines t := by
  have hpieces : (l ++ '\n' :: t).splitOn '\n' = l :: t.splitOn '\n' :=
    List.splitOn_append_cons_self_of_not_mem hl t
  have hne : t.splitOn '\n' ≠ [] := List.splitOn_ne_nil '\n' t
  simp only [lines, hpieces, List.dropLast_cons_of_ne_nil hne, List.getLast?_cons]
  cases hlast : (t.splitOn '\n').getLast? with
  | none => exact absurd (List.getLast?_eq_none_iff.1 hlast) hne
  | some last => simp

theorem Newline.lines_append (nl : Newline) {l : Text} (hl : IsLine l) (t : Text) :
    lines (l ++ nl.text ++ t) = l :: lines t := by
  cases nl with
  | lf =>
    have h := Text.lines_append hl.1 t
    rw [dropReturn_of_isLine hl] at h
    simpa [text] using h
  | crlf =>
    have hmem : '\n' ∉ l ++ ['\r'] := by simpa using hl.1
    have h := Text.lines_append hmem t
    have hdrop : dropReturn (l ++ ['\r']) = l := by simp [dropReturn]
    rw [hdrop] at h
    simpa [text] using h

theorem Newline.lines_flatMap (nl : Newline) {ls : List Text} (hls : ∀ l ∈ ls, IsLine l)
    (t : Text) :
    lines (ls.flatMap (· ++ nl.text) ++ t) = ls ++ lines t := by
  induction ls with
  | nil => rfl
  | cons l ls ih =>
    have hl := nl.lines_append (hls l List.mem_cons_self) (ls.flatMap (· ++ nl.text) ++ t)
    rw [List.flatMap_cons, List.append_assoc, hl, ih fun m hm => hls m (.tail l hm)]
    rfl

theorem Newline.text_ends (nl : Newline) : ∃ w, nl.text = w ++ ['\n'] := by
  cases nl with
  | lf => exact ⟨[], rfl⟩
  | crlf => exact ⟨['\r'], rfl⟩

theorem Newline.isGap_text (nl : Newline) : ∀ c ∈ nl.text, Source.isGap c = true := by
  cases nl <;> exact forall_of_all (by decide)

theorem Newline.detect_eq_crlf_iff {source : Text} :
    Newline.detect source = .crlf ↔ ['\r', '\n'] <:+: source := by
  rw [← mentions_iff]
  by_cases h : mentions ['\r', '\n'] source = true <;> simp [Newline.detect, h]

theorem Newline.detect_eq_lf_iff {source : Text} :
    Newline.detect source = .lf ↔ ¬['\r', '\n'] <:+: source := by
  rw [← Newline.detect_eq_crlf_iff]
  cases Newline.detect source <;> simp

/-- A text whose lines end in feeds alone, whatever follows it. -/
structure IsFeedText (t : Text) : Prop where
  pair : ¬['\r', '\n'] <:+: t
  last : t.getLast? ≠ some '\r'

theorem isFeedText_of_not_mem {t : Text} (h : '\r' ∉ t) : IsFeedText t :=
  ⟨fun hpair => h (hpair.subset (by simp)), fun hlast => h (List.mem_of_getLast? hlast)⟩

theorem IsFeedText.append {a b : Text} (ha : IsFeedText a) (hb : IsFeedText b) :
    IsFeedText (a ++ b) := by
  refine ⟨fun hpair => ?_, fun hlast => ?_⟩
  · rcases pair_infix_append_iff.1 hpair with h | h | ⟨h, -⟩
    · exact ha.pair h
    · exact hb.pair h
    · exact ha.last h
  · rw [List.getLast?_append, Option.or_eq_some_iff] at hlast
    cases hlast with
    | inl h => exact hb.last h
    | inr h => exact ha.last h.2

theorem isFeedText_of_line {l : Text} (hl : '\n' ∉ l) {c : Char} (hreturn : c ≠ '\r')
    (hfeed : c ≠ '\n') : IsFeedText (l ++ [c]) := by
  refine ⟨fun hpair => ?_, by simpa using hreturn⟩
  have hmem : '\n' ∈ l ++ [c] := hpair.subset (by simp)
  simp [hl, Ne.symm hfeed] at hmem

namespace Layout

/-- The layout of a printed file: some spaces or tabs in front of every line of an item. -/
structure IsUsable (indent : Text) : Prop where
  filled : indent ≠ []
  blank : ∀ c ∈ indent, c = ' ' ∨ c = '\t'

theorem IsUsable.isGap {indent : Text} (h : IsUsable indent) :
    ∀ c ∈ indent, Source.isGap c = true := by
  intro c hc
  rcases h.blank c hc with rfl | rfl <;> decide

theorem IsUsable.isBlank {indent : Text} (h : IsUsable indent) :
    ∀ c ∈ indent, isBlank c = true := by
  intro c hc
  rcases h.blank c hc with rfl | rfl <;> decide

theorem IsUsable.not_mem {indent : Text} (h : IsUsable indent) {c : Char} (hspace : c ≠ ' ')
    (htab : c ≠ '\t') : c ∉ indent := fun hc => (h.blank c hc).elim hspace htab

theorem isUsable_standard : IsUsable standard.indent := ⟨by decide, forall_of_all (by decide)⟩

theorem isUsable_detect (source body : Text) (isEntry : Text → Bool) :
    IsUsable (detect source body isEntry).indent := by
  unfold detect
  dsimp only
  split
  · exact isUsable_standard
  · next hne =>
    refine ⟨hne, fun c hc => ?_⟩
    simpa using List.all_eq_true.1 List.all_takeWhile c hc

theorem newline_detect (source body : Text) (isEntry : Text → Bool) :
    (detect source body isEntry).newline = .detect source := by
  unfold detect
  dsimp only
  split <;> rfl

theorem IsUsable.indentOf {indent : Text} (h : IsUsable indent) {c : Char}
    (hc : Text.isBlank c = false) (l : Text) : Layout.indentOf (indent ++ c :: l) = indent := by
  refine (takeWhile_dropWhile_iff.2 ⟨rfl, fun d hd => ?_, fun d hd => ?_⟩).1
  · simpa using h.blank d hd
  · obtain rfl := Option.some.inj hd
    have hspace : c ≠ ' ' := by rintro rfl; exact absurd hc (by decide)
    have htab : c ≠ '\t' := by rintro rfl; exact absurd hc (by decide)
    simp [hspace, htab]

structure IsTextLine (indent : Text) (c : Char) (l : Text) : Prop where
  usable : IsUsable indent
  filled : isBlank c = false
  line : IsLine (indent ++ c :: l)

theorem IsTextLine.trimStart {indent l : Text} {c : Char} (h : IsTextLine indent c l) :
    Text.trimStart (indent ++ c :: l) = c :: l :=
  trimStart_append_cons h.usable.isBlank h.filled l

theorem IsTextLine.isAllBlank {indent l : Text} {c : Char} (h : IsTextLine indent c l) :
    Text.isAllBlank (indent ++ c :: l) = false := by
  simp [Text.isAllBlank, h.filled]

theorem IsTextLine.indentOf {indent l : Text} {c : Char} (h : IsTextLine indent c l) :
    Layout.indentOf (indent ++ c :: l) = indent := h.usable.indentOf h.filled l

variable {isEntry : Text → Bool}

theorem detect_of_line {source body line : Text} {before after : List Text}
    (hlines : lines body = before ++ line :: after)
    (hbefore : ∀ x ∈ before, isEntry (trimStart x) = false) (hfilled : isAllBlank line = false)
    (hentry : isEntry (trimStart line) = true) (hindent : indentOf line ≠ []) :
    detect source body isEntry = ⟨indentOf line, .detect source⟩ := by
  have hnone : (before.filter (!isAllBlank ·)).find? (fun l => isEntry (trimStart l)) = none := by
    refine List.find?_eq_none.2 fun x hx => ?_
    simp [hbefore x (List.mem_filter.1 hx).1]
  have hfind : ((lines body).filter (!isAllBlank ·)).find? (fun l => isEntry (trimStart l)) =
      some line := by
    rw [hlines, List.filter_append, List.find?_append, hnone, Option.none_or,
      List.filter_cons_of_pos (by simp [hfilled]), List.find?_cons_of_pos]
    exact hentry
  unfold detect
  simp only [hfind, Option.some_or, Option.getD_some]

theorem detect_of_entry {source body indent l : Text} {c : Char} {before after : List Text}
    (hlines : lines body = before ++ (indent ++ c :: l) :: after)
    (hbefore : ∀ x ∈ before, isEntry (trimStart x) = false) (hl : IsTextLine indent c l)
    (hentry : isEntry (c :: l) = true) :
    detect source body isEntry = ⟨indent, .detect source⟩ := by
  have hindent := hl.indentOf
  rw [detect_of_line hlines hbefore hl.isAllBlank (by rwa [hl.trimStart])
    (by rw [hindent]; exact hl.usable.filled), hindent]

theorem detect_of_none {source body : Text}
    (hentry : ∀ x ∈ lines body, isEntry (trimStart x) = false)
    (hcomment : ∀ x ∈ lines body, startsWith (trimStart x) Source.commentMark = false) :
    detect source body isEntry = ⟨standard.indent, .detect source⟩ := by
  have hnone {p : Text → Bool} (hp : ∀ x ∈ lines body, p x = false) :
      ((lines body).filter (!isAllBlank ·)).find? p = none :=
    List.find?_eq_none.2 fun x hx => by simp [hp x (List.mem_filter.1 hx).1]
  unfold detect
  simp only [hnone hentry, hnone hcomment]
  rfl

theorem detect_of_comment {source body indent l : Text} {c : Char} {before after : List Text}
    (hlines : lines body = before ++ (indent ++ c :: l) :: after)
    (hbefore : ∀ x ∈ before, x = []) (hl : IsTextLine indent c l)
    (hentry : ∀ x ∈ lines body, isEntry (trimStart x) = false)
    (hcomment : startsWith (c :: l) Source.commentMark = true) :
    detect source body isEntry = ⟨indent, .detect source⟩ := by
  have hnone : ((lines body).filter (!isAllBlank ·)).find? (fun l => isEntry (trimStart l)) =
      none := by
    refine List.find?_eq_none.2 fun x hx => ?_
    simp [hentry x (List.mem_filter.1 hx).1]
  have hblank : before.filter (!isAllBlank ·) = [] := by
    refine List.filter_eq_nil_iff.2 fun x hx => ?_
    rw [hbefore x hx]
    simp [isAllBlank]
  have hfind : ((lines body).filter (!isAllBlank ·)).find?
      (fun l => startsWith (trimStart l) Source.commentMark) = some (indent ++ c :: l) := by
    rw [hlines, List.filter_append, hblank, List.nil_append,
      List.filter_cons_of_pos (by simp [hl.isAllBlank]), List.find?_cons_of_pos]
    rw [hl.trimStart]
    exact hcomment
  have hindent := hl.indentOf
  have hne : indent ≠ [] := hl.usable.filled
  unfold detect
  simp only [hnone, hfind, Option.none_or, Option.getD_some, hindent]

/-- The line that the indent is read off. -/
def indentLine (isEntry : Text → Bool) (ls : List Text) : Text :=
  let filled := ls.filter (!isAllBlank ·)
  ((filled.find? fun l => isEntry (trimStart l)).or
    (filled.find? fun l => startsWith (trimStart l) Source.commentMark)).getD []

/-- A comment behind the given indent, which holds no entry. -/
structure IsCommentLine (isEntry : Text → Bool) (indent l : Text) : Prop where
  filled : isAllBlank l = false
  entry : isEntry (Text.trimStart l) = false
  comment : startsWith (Text.trimStart l) Source.commentMark = true
  indent : Layout.indentOf l = indent

theorem indentOf_indentLine {indent l l' : Text} (h : IsCommentLine isEntry indent l)
    (h' : IsCommentLine isEntry indent l') (ls ms : List Text) :
    indentOf (indentLine isEntry (ls ++ l :: ms)) =
      indentOf (indentLine isEntry (ls ++ l' :: ms)) := by
  have hfound {l : Text} (h : IsCommentLine isEntry indent l) :
      indentLine isEntry (ls ++ l :: ms) =
        ((((ls ++ ms).filter (!isAllBlank ·)).find? fun l => isEntry (trimStart l)).or
          (((ls.filter (!isAllBlank ·)).find? fun l =>
            startsWith (trimStart l) Source.commentMark).or (some l))).getD [] := by
    rw [indentLine, List.filter_append, List.filter_cons_of_pos (by simp [h.filled])]
    simp [List.find?_append, h.entry, h.comment]
  rw [hfound h, hfound h']
  cases ((ls ++ ms).filter (!isAllBlank ·)).find? fun l => isEntry (trimStart l) with
  | some x => rfl
  | none =>
    cases (ls.filter (!isAllBlank ·)).find? fun l =>
        startsWith (trimStart l) Source.commentMark with
    | some x => rfl
    | none => exact h.indent.trans h'.indent.symm

/-- A layout depends on the kind of line ends and the indent of one line. -/
theorem detect_congr {source source' body body' : Text}
    (hnewline : Newline.detect source = .detect source')
    (hindent : indentOf (indentLine isEntry (lines body)) =
      indentOf (indentLine isEntry (lines body'))) :
    detect source body isEntry = detect source' body' isEntry := by
  unfold indentLine at hindent
  simp only [detect, hnewline, hindent]

end Layout
end IconCatalog
