import IconCatalog.Proofs.Enumeration.File
import IconCatalog.Proofs.Source.Comment
import IconCatalog.Proofs.Table.File
/-!
Comments in generated files. A comment on a line of its own may say anything in an enumeration file,
since neither a heading nor a member can reach over it. The heading of a table and its entries can,
so for a table file the line has to keep clear of them, and the name of the table stands in the
heading alone.
-/
namespace IconCatalog
open Text Source

namespace Source.CommentLine
variable {k : CommentLine} {t : Text}

/-- Whether the rest of the line behind a part of a text is a comment on a line of its own. -/
def IsCommented (x : Text) : Prop :=
  ∃ a w u, x = a ++ (w ++ commentMark ++ u) ∧ EndsLine a ∧ (∀ c ∈ w, c = ' ' ∨ c = '\t') ∧ '\n' ∉ u

theorem IsCommented.not_admits {x : Text} (h : IsCommented x) :
    (x.foldl LineState.step .start).admits = false := by
  obtain ⟨a, w, u, rfl, ha, hw, hu⟩ := h
  have hs : ((a ++ (w ++ commentMark ++ u)).foldl LineState.step .start).commented = true := by
    rw [List.foldl_append, ha.foldl_step, List.foldl_append]
    exact commented_foldl_step (commented_of_blank hw rfl) hu
  rw [LineState.admits, hs]
  rfl

theorem IsCommented.of_append {x y : Text} (h : IsCommented (x ++ y)) (hy : '/' ∉ y) :
    IsCommented x := by
  obtain ⟨a, w, u, heq, ha, hw, hu⟩ := h
  rw [← List.append_assoc] at heq
  rcases List.append_eq_append_iff.1 heq with ⟨c, hx, hyu⟩ | ⟨c, hx, hyu⟩
  · cases c with
    | nil => exact ⟨a, w, [], by simpa using hx.symm, ha, hw, by simp⟩
    | cons d c =>
      refine absurd ?_ hy
      have hlast : (d :: c).getLast? = some '/' := by
        rw [← getLast?_suffix hx (List.cons_ne_nil d c)]
        simp [commentMark]
      rw [hyu]
      exact List.mem_append_left u (List.mem_of_getLast? hlast)
  · refine ⟨a, w, c, by rw [hx, List.append_assoc], ha, hw, fun h => hu ?_⟩
    rw [hyu]
    exact List.mem_append_left y h

theorem exists_of_rest {c r : Text} {x : Char} (h : k.rest t = c ++ r)
    (hlast : c.getLast? = some x) (hx : isGap x = false) : ∃ d, c = k.indent ++ '/' :: d := by
  have hout : x ∉ k.indent := not_mem_of_isGap k.isGap_indent hx
  rw [rest_eq] at h
  rcases List.append_eq_append_iff.1 h with ⟨d, rfl, hd⟩ | ⟨d, hindent, -⟩
  · cases d with
    | nil =>
      rw [List.append_nil] at hlast
      exact absurd (List.mem_of_getLast? hlast) hout
    | cons e d =>
      obtain ⟨rfl, -⟩ := List.cons.inj hd
      exact ⟨d, rfl⟩
  · refine absurd ?_ hout
    rw [hindent]
    exact List.mem_append_left d (List.mem_of_getLast? hlast)

end Source.CommentLine

open CommentLine

namespace Enumeration
variable {k : CommentLine} {category : Category}

def HasNoSlashLine (s : Text) : Prop :=
  ∀ a g y, s = a ++ '\n' :: (g ++ '/' :: y) → ¬IsGap g

theorem HasNoSlashLine.append {x y : Text} (hx : '\n' ∉ x) (hy : HasNoSlashLine y) :
    HasNoSlashLine (x ++ y) := by
  intro a g z heq
  rcases List.append_eq_append_iff.1 heq with ⟨c, rfl, hc⟩ | ⟨c, rfl, hc⟩
  · exact hy c g z hc
  · cases c with
    | nil => exact hy [] g z hc.symm
    | cons d c =>
      obtain ⟨rfl, -⟩ := List.cons.inj hc
      exact absurd (by simp) hx

theorem HasNoSlashLine.gap_append {w y : Text} {c : Char} (hw : IsGap w) (hc : isGap c = false)
    (hslash : c ≠ '/') (hy : HasNoSlashLine (c :: y)) : HasNoSlashLine (w ++ c :: y) := by
  intro a g z heq hg
  rcases List.append_eq_append_iff.1 heq with ⟨d, rfl, hd⟩ | ⟨d, rfl, hd⟩
  · exact hy d g z hd hg
  · have hgap : IsGap d := fun e he => hw e (List.mem_append_right a he)
    have hskip := congrArg skipGap hd
    rw [skipGap_gap_cons hgap hc, ← List.cons_append,
      skipGap_gap_cons (List.forall_mem_cons.2 ⟨by decide, hg⟩) (by decide)] at hskip
    exact hslash (List.cons.inj hskip).1.symm

theorem hasNoSlashLine_of_not_mem {s : Text} (hs : '\n' ∉ s) : HasNoSlashLine s := by
  rintro a g y rfl
  exact absurd (by simp) hs

theorem IsMember.hasNoSlashLine {s name : Text} (h : IsMember s name) : HasNoSlashLine s := by
  cases h with
  | @mk key name v w value content comma hkey hv hw hvalue hcomma =>
    obtain ⟨q, hq, rfl, hcontent⟩ := quoted?_eq_some_iff.1 hvalue
    have hquote : isGap q = false ∧ q ≠ '/' ∧ q ≠ '\n' := by rcases hq with rfl | rfl <;> decide
    have hkeyline : '\n' ∉ key := by
      cases hkey with
      | bare hne hchars => exact IsName.not_mem ⟨hne, hchars⟩ (by decide)
      | quoted hq hchars =>
        have hname : '\n' ∉ name := fun hmem => (hchars _ hmem).2 rfl
        rcases hq with rfl | rfl <;> simp [hname, doubleQuote, singleQuote]
    have hvalueline : '\n' ∉ q :: (content ++ [q]) := by
      have hcontent : '\n' ∉ content := fun hmem => absurd (hcontent _ hmem) (by simp [isInside])
      simp [hcontent, Ne.symm hquote.2.2]
    have hclosing : HasNoSlashLine comma := by
      cases hcomma with
      | left_out => exact hasNoSlashLine_of_not_mem (by simp)
      | written hg =>
        exact .gap_append hg (by decide) (by decide) (hasNoSlashLine_of_not_mem (by decide))
    have hright : HasNoSlashLine (w ++ (q :: (content ++ [q]) ++ comma)) :=
      .gap_append hw hquote.1 hquote.2.1 (hclosing.append hvalueline)
    have hequals : HasNoSlashLine ('=' :: (w ++ (q :: (content ++ [q]) ++ comma))) :=
      hright.append (x := ['=']) (by decide)
    have hleft : HasNoSlashLine (v ++ '=' :: (w ++ (q :: (content ++ [q]) ++ comma))) :=
      .gap_append hv (by decide) (by decide) hequals
    exact hleft.append hkeyline

theorem IsMember.exists_last {s name : Text} (h : IsMember s name) :
    ∃ c, s.getLast? = some c ∧ isGap c = false := by
  cases h with
  | @mk key name v w value content comma hkey hv hw hvalue hcomma =>
    obtain ⟨q, hq, rfl, -⟩ := quoted?_eq_some_iff.1 hvalue
    have hquote : isGap q = false := by rcases hq with rfl | rfl <;> decide
    cases hcomma with
    | left_out => exact ⟨q, by simp [List.getLast?_append, List.getLast?_cons], hquote⟩
    | written => exact ⟨',', by simp [List.getLast?_append, List.getLast?_cons], by decide⟩

theorem IsMember.not_crosses {c d r name : Text} (h : IsMember (c ++ d) name)
    (hc : c.getLast? = some '\n') (hd : d ≠ []) : k.rest t ≠ d ++ r := by
  intro hrest
  obtain ⟨x, hlast, hx⟩ := h.exists_last
  rw [getLast?_suffix rfl hd] at hlast
  obtain ⟨e, rfl⟩ := exists_of_rest hrest hlast hx
  obtain ⟨z, rfl⟩ := List.getLast?_eq_some_iff.1 hc
  exact h.hasNoSlashLine z k.indent e (by simp) k.isGap_indent

theorem spans_apart (k : CommentLine) (category : Category) (t : Text) :
    ∀ span ∈ (declaration category).spans (k.text t),
      span.stop ≤ k.before.length ∨ k.before.length ≤ span.start := by
  intro span hspan
  obtain ⟨header, -, hspan⟩ := List.mem_flatMap.1 hspan
  obtain ⟨a, ha, rfl⟩ := List.mem_map.1 hspan
  obtain ⟨u, s, r, hdrop, hs, hplace⟩ := exists_of_mem_located members_reads ha
  obtain ⟨y, htext⟩ : ∃ y, k.before ++ k.rest t = y ++ (s ++ r) := by
    refine ⟨(k.text t).take header.stop ++ u, ?_⟩
    rw [List.append_assoc, ← hdrop]
    exact (List.take_append_drop header.stop (k.text t)).symm
  have hlength : (k.text t).length = y.length + (s ++ r).length := by
    rw [← List.length_append, ← htext]
    rfl
  rw [hplace, hlength]
  simp only [List.length_append]
  rcases apart_or_crosses htext with hstop | hstart | ⟨c, d, hc, hd, hbefore, rfl, hrest⟩
  · omega
  · omega
  · have hstarts := k.startsLine
    rw [hbefore] at hstarts
    have hfeed := hstarts.of_append.resolve_left hc
    exact absurd hrest (hs.not_crosses hfeed hd)

theorem isReadable (category : Category) :
    IsReadable (declaration category) (IsHeading category) IsMember :=
  ⟨members_reads, header_endsAtBrace category,
    fun _ t hc => Pattern.sequence_word_of_head hc "xport".toList t _⟩

theorem bars_header (k : CommentLine) (category : Category) : k.Bars (header category) := by
  intro u v hv hne hs
  by_cases hbrace : '\x7b' ∈ v
  · exact .inl hbrace
  · refine .inr fun t => ?_
    have hrest : v ++ k.rest t =
        v ++ (k.indent ++ ['/']) ++ ('/' :: t ++ (k.newline.text ++ k.after)) := by
      rw [rest_eq]
      simp
    have hindent : '\x7b' ∉ k.indent := not_mem_of_isGap k.isGap_indent (by decide)
    rw [hrest]
    exact header_mark (c := '/') (by simp [hbrace, hindent]) (by simp) (by decide) (by decide) _

end Enumeration

namespace EnumFile
variable {k : CommentLine} {category : Category} {t t' : Text}

theorem read_text (ht : IsRemark t) (ht' : IsRemark t') {f : EnumFile}
    (h : read category (k.text t) = .ok f) : ∃ f', read category (k.text t') = .ok f' ∧
      f'.members = f.members ∧ f'.layout = f.layout := by
  cases hfind : (Enumeration.declaration category).find (k.text t) with
  | error fault =>
    rw [read, hfind] at h
    cases h
  | ok found =>
    obtain ⟨found', hfinds⟩ :=
      find_text (Enumeration.isReadable category) (Enumeration.bars_header k category) ht ht'
        (Enumeration.spans_apart k category t) hfind
    rw [read, hfind] at h
    obtain rfl := Except.ok.inj h
    exact ⟨_, by rw [read, hfinds.find]; rfl, hfinds.items,
      hfinds.layout passesNotes_isMemberLine.2⟩

end EnumFile

namespace Table
variable {k : CommentLine} {t : Text}

theorem isReadable : IsReadable declaration IsHeading IsEntry :=
  ⟨entries_reads, header_endsAtBrace,
    fun _ t hc => Pattern.sequence_word_of_head hc "xport".toList t _⟩

/-- The name of the table stands in its heading alone, comments on lines of their own left aside. -/
def NamedOnce (source : Text) : Prop :=
  ∀ x y, source = x ++ (declaredName ++ y) → IsCommented x ∨
    ∃ span ∈ occurrences header source,
      span.start ≤ x.length ∧ (x ++ declaredName).length ≤ span.stop

theorem exists_name {v r : Text} (h : header v = some r) : ∃ lead more,
    v = lead ++ (declaredName ++ more) ∧ '/' ∉ lead ++ declaredName := by
  obtain ⟨u, hu, rfl⟩ := exists_heading h
  obtain ⟨x, y, more, hx, hy, rfl⟩ := hu.words
  have hxslash : '/' ∉ x := not_mem_of_isGap hx.2 (by decide)
  have hyslash : '/' ∉ y := not_mem_of_isGap hy.2 (by decide)
  have hwords : '/' ∉ "export".toList ∧ '/' ∉ "const".toList ∧ '/' ∉ declaredName := by decide
  refine ⟨"export".toList ++ x ++ "const".toList ++ y, more ++ '\x7b' :: r, by simp, ?_⟩
  simp only [List.mem_append, not_or]
  exact ⟨⟨⟨⟨hwords.1, hxslash⟩, hwords.2.1⟩, hyslash⟩, hwords.2.2⟩

theorem exists_name_of_rest {v r : Text} (h : header (v ++ k.rest t) = some r) :
    ∃ lead z, v = lead ++ (declaredName ++ z) ∧ '/' ∉ lead := by
  obtain ⟨lead, more, heq, hslash⟩ := exists_name h
  have hlead : '/' ∉ lead := fun h => hslash (List.mem_append_left _ h)
  rw [← List.append_assoc] at heq
  rcases List.append_eq_append_iff.1 heq with ⟨c, hc, hrest⟩ | ⟨c, hc, -⟩
  · cases c with
    | nil => exact ⟨lead, [], by simpa using hc.symm, hlead⟩
    | cons d c =>
      have hlast : (d :: c).getLast? = some 'p' := by
        rw [← getLast?_suffix hc (List.cons_ne_nil d c), List.getLast?_append]
        rfl
      obtain ⟨e, he⟩ := exists_of_rest hrest hlast (by decide)
      refine absurd ?_ hslash
      rw [hc, he]
      simp
  · exact ⟨lead, c, by rw [hc, List.append_assoc], hlead⟩

theorem brace_mem_of_header {span : Span} {u v : Text}
    (hone : occurrences header (k.text t) = [span]) (hspan : k.IsOutside t span)
    (hbefore : k.before = u ++ v) (hstart : span.start < k.before.length)
    (hstop : u.length < span.stop) : '\x7b' ∈ v := by
  obtain ⟨x, w, rest, hsplit, -, hplace, -⟩ := exists_of_occurrencesFrom header_endsAtBrace hone
  have hlength : k.before.length = u.length + v.length := by rw [hbefore, List.length_append]
  have hmeet : x ++ w ++ '\x7b' :: rest = u ++ (v ++ k.rest t) := by
    rw [List.append_assoc, ← hsplit, text, hbefore, List.append_assoc]
  rw [hplace] at hspan hstart hstop
  simp only [IsOutside, List.length_append] at hspan hstart hstop
  refine mem_of_append hmeet ?_ ?_
  · rw [List.length_append]
    omega
  · rw [List.length_append]
    omega

theorem bars_header {span : Span} (hone : occurrences header (k.text t) = [span])
    (hspan : k.IsOutside t span) (hname : NamedOnce (k.text t)) : k.Bars header := by
  intro u v hbefore hne hs
  by_cases hbrace : '\x7b' ∈ v
  · exact .inl hbrace
  refine .inr fun t₁ => ?_
  cases hm : header (v ++ k.rest t₁) with
  | none => rfl
  | some r =>
    obtain ⟨lead, z, hv, hlead⟩ := exists_name_of_rest hm
    have htext : k.text t = u ++ lead ++ (declaredName ++ (z ++ k.rest t)) := by
      rw [text, hbefore, hv]
      simp
    cases hname _ _ htext with
    | inl hcommented =>
      rw [(hcommented.of_append hlead).not_admits] at hs
      cases hs
    | inr hheading =>
      obtain ⟨span', hmem, hstart, hstop⟩ := hheading
      rw [hone, List.mem_singleton] at hmem
      have hpositive : declaredName.length = 7 := rfl
      rw [hmem] at hstart hstop
      simp only [List.length_append] at hstart hstop
      refine absurd (brace_mem_of_header hone hspan hbefore ?_ ?_) hbrace
      · rw [hbefore, hv]
        simp only [List.length_append]
        omega
      · omega

end Table

namespace TableFile
variable {k : CommentLine} {t t' : Text}

theorem read_text (ht : IsRemark t) (ht' : IsRemark t')
    (hheader : ∀ span ∈ occurrences Table.header (k.text t), k.IsOutside t span)
    (hentries : ∀ span ∈ Table.declaration.spans (k.text t), k.IsOutside t span)
    (hname : Table.NamedOnce (k.text t)) {f : TableFile} (h : read (k.text t) = .ok f) :
    ∃ f', read (k.text t') = .ok f' ∧ f'.table = f.table ∧ f'.layout = f.layout := by
  cases hfind : Table.declaration.find (k.text t) with
  | error fault =>
    rw [read, hfind] at h
    cases h
  | ok found =>
    obtain ⟨span, hone⟩ := Declaration.exists_header_of_find hfind
    have hone : occurrences Table.header (k.text t) = [span] := hone
    have hbars := Table.bars_header hone (hheader span (by simp [hone])) hname
    have hapart : ∀ span ∈ Table.declaration.spans (k.text t),
        span.stop ≤ k.before.length ∨ k.before.length ≤ span.start := by
      intro span hspan
      have houtside := hentries span hspan
      rw [IsOutside, List.length_append] at houtside
      omega
    obtain ⟨found', hfinds⟩ := find_text Table.isReadable hbars ht ht' hapart hfind
    rw [read_of_find hfind] at h
    rw [read_of_find hfinds.find, hfinds.items]
    cases hes : Table.ofEntries found.items with
    | error fault =>
      rw [hes] at h
      cases h
    | ok table =>
      rw [hes] at h
      obtain rfl := Except.ok.inj h
      exact ⟨_, rfl, rfl, hfinds.layout passesNotes_isEntryLine.2⟩

end TableFile

/-- What a comment on a line of its own says is not seen. An enumeration file is read with the same
members and layout whatever it says, or not at all. A table file that is read is so with the same
groups and layout, if the line keeps clear of the heading and of all entries, and if the name of the
table stands in the heading alone. -/
theorem comments_unseen (k : CommentLine) {t t' : Text} (ht : IsRemark t) (ht' : IsRemark t') :
    (∀ category, ((EnumFile.read category (k.text t)).toOption.map fun f => (f.members, f.layout)) =
      (EnumFile.read category (k.text t')).toOption.map fun f => (f.members, f.layout)) ∧
    ∀ f, TableFile.read (k.text t) = .ok f →
      (∀ span ∈ occurrences Table.header (k.text t), k.IsOutside t span) →
      (∀ span ∈ Table.declaration.spans (k.text t), k.IsOutside t span) →
      Table.NamedOnce (k.text t) →
      ∃ f', TableFile.read (k.text t') = .ok f' ∧ f'.table = f.table ∧ f'.layout = f.layout := by
  refine ⟨fun category => ?_, fun f hf hheader hentries hname =>
    TableFile.read_text ht ht' hheader hentries hname hf⟩
  cases hread : EnumFile.read category (k.text t) with
  | ok f =>
    obtain ⟨f', hread', hmembers, hlayout⟩ := EnumFile.read_text ht ht' hread
    rw [hread']
    simp [Except.toOption, hmembers, hlayout]
  | error fault =>
    cases hread' : EnumFile.read category (k.text t') with
    | error fault' => rfl
    | ok f' =>
      obtain ⟨f, hf, -⟩ := EnumFile.read_text ht' ht hread'
      rw [hread] at hf
      exact nomatch hf

/-- Comments that spell out headings, braces and quotes, in the body of a table and in front of an
enumeration. -/
theorem comments_unseen_headings :
    let k : CommentLine :=
      { before := ("export const iconMap = \x7b\n\t'a': \x7b lightMode: baseImgUrlToken(1), " ++
          "darkMode: 2 \x7d,\n").toList
        indent := "  ".toList
        newline := .crlf
        after := "\x7d;\n".toList
        startsLine := .inr (by decide)
        blank := forall_of_all (by decide) }
    let m : CommentLine :=
      { before := [], indent := ['\t'], newline := .lf
        after := "export enum TokenSymbol \x7b\n  BTC = 'BTC'\n\x7d\n".toList
        startsLine := .inl rfl
        blank := forall_of_all (by decide) }
    let t := " iconMap".toList
    let t' := " export const iconMap = \x7b export enum TokenSymbol \x7b 'b': \x7d".toList
    IsRemark t ∧ IsRemark t' ∧
      ((EnumFile.read .token (m.text t)).toOption.map fun f => (f.members, f.layout)) =
        some (["BTC".toList], .standard) ∧
      ((EnumFile.read .token (m.text t')).toOption.map fun f => (f.members, f.layout)) =
        some (["BTC".toList], .standard) ∧
      ∃ f f', TableFile.read (k.text t) = .ok f ∧
        (∀ span ∈ occurrences Table.header (k.text t), k.IsOutside t span) ∧
        (∀ span ∈ Table.declaration.spans (k.text t), k.IsOutside t span) ∧
        Table.NamedOnce (k.text t) ∧ f.layout = ⟨['\t'], .crlf⟩ ∧
        TableFile.read (k.text t') = .ok f' ∧ f'.table = f.table ∧ f'.layout = f.layout := by
  intro k m t t'
  have ht : IsRemark t := forall_of_all (by decide)
  have ht' : IsRemark t' := forall_of_all (by decide)
  let a : Entry := ⟨"a".toList, "baseImgUrlToken(1)".toList, "2".toList⟩
  let f : TableFile :=
    ⟨(k.text t).take 24, ⟨[a], [], []⟩, "\x7d;\n".toList, ⟨['\t'], .crlf⟩⟩
  have hf : TableFile.read (k.text t) = .ok f := eq_ok_of_toOption (by decide +kernel)
  have hheading : occurrences Table.header (k.text t) = [⟨0, 24⟩] := by decide +kernel
  have hname : Table.NamedOnce (k.text t) := by
    intro x y h
    have hplaces : ∀ n < (k.text t).length, Table.declaredName <+: (k.text t).drop n →
        n = 13 ∨ n = 84 := by
      decide +kernel
    have hdrop : (k.text t).drop x.length = Table.declaredName ++ y := by rw [h, List.drop_left]
    have htake : (k.text t).take x.length = x := by rw [h, List.take_left]
    have hlt : x.length < (k.text t).length := by
      rw [h, List.length_append, List.length_append]
      exact Nat.lt_add_of_pos_right (Nat.lt_of_lt_of_le (by decide) (Nat.le_add_right _ _))
    rcases hplaces x.length hlt ⟨y, hdrop.symm⟩ with hx | hx
    · refine .inr ⟨⟨0, 24⟩, by rw [hheading]; exact .head _, Nat.zero_le _, ?_⟩
      rw [List.length_append, hx]
      decide
    · rw [hx] at htake
      exact .inl ⟨k.before, k.indent, [' '], by rw [← htake]; decide +kernel, k.startsLine, k.blank,
        by decide⟩
  obtain ⟨-, htable⟩ := comments_unseen k ht ht'
  obtain ⟨henum, -⟩ := comments_unseen m ht ht'
  have hread : ((EnumFile.read .token (m.text t)).toOption.map fun f => (f.members, f.layout)) =
      some (["BTC".toList], .standard) := by
    decide +kernel
  have hheader : ∀ span ∈ occurrences Table.header (k.text t), k.IsOutside t span := by
    rw [hheading]
    decide +kernel
  have hentries : ∀ span ∈ Table.declaration.spans (k.text t), k.IsOutside t span := by
    decide +kernel
  obtain ⟨f', hf', hsame, hlayout⟩ := htable f hf hheader hentries hname
  exact ⟨ht, ht', hread, (henum .token).symm.trans hread, f, f', hf, hheader, hentries, hname, rfl,
    hf', hsame, hlayout⟩

end IconCatalog
