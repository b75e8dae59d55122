import IconCatalog.Proofs.Layout
import IconCatalog.Proofs.Source.Place
/-!
A comment on a line of its own. What it says is seen neither by the search for a heading nor by the
reader of a body, and it does not count for the layout. So two source texts that differ in such a
comment alone hold the same declaration, as long as nothing before the comment reaches over it.
-/
namespace IconCatalog.Source
open Text
variable {α : Type}

def IsRemark (t : Text) : Prop := ∀ c ∈ t, isLineEnd c = false

/-- A source text with a comment on a line of its own, up to what the comment says. -/
structure CommentLine where
  before : Text
  indent : Text
  newline : Newline
  after : Text
  startsLine : EndsLine before
  blank : ∀ c ∈ indent, c = ' ' ∨ c = '\t'

namespace CommentLine
variable (k : CommentLine) {t : Text}

def line (t : Text) : Text := k.indent ++ (commentMark ++ t)

def rest (t : Text) : Text := k.line t ++ (k.newline.text ++ k.after)

def text (t : Text) : Text := k.before ++ k.rest t

def IsOutside (t : Text) (span : Span) : Prop :=
  span.stop ≤ k.before.length ∨ (k.before ++ k.line t).length ≤ span.start

instance (t : Text) (span : Span) : Decidable (k.IsOutside t span) :=
  inferInstanceAs (Decidable (_ ∨ _))

theorem isGap_indent : IsGap k.indent := by
  intro c hc
  rcases k.blank c hc with rfl | rfl <;> decide

theorem skipGap_rest (t : Text) :
    skipGap (k.rest t) = commentMark ++ t ++ (k.newline.text ++ k.after) := by
  rw [rest, line, List.append_assoc, skipGap_append k.isGap_indent, List.append_assoc]
  exact skipGap_cons (by decide) _

theorem comment?_rest (ht : IsRemark t) :
    comment? (skipGap (k.rest t)) = some (t, k.newline.text ++ k.after) := by
  have hend : atLineEnd (k.newline.text ++ k.after) = true := by cases k.newline <;> rfl
  exact comment?_eq_some_iff.2 ⟨k.skipGap_rest t, ht, hend⟩

theorem char?_rest {c : Char} (hc : c ≠ '/') (t : Text) :
    char? c (skipGap (k.rest t)) = none := by
  rw [skipGap_rest, char?_eq_none_iff]
  exact fun h => hc (Option.some.inj h).symm

theorem rest_eq (t : Text) :
    k.rest t = k.indent ++ '/' :: ('/' :: t ++ (k.newline.text ++ k.after)) := by
  simp [rest, line, commentMark]

theorem exists_head_rest (t : Text) : ∃ c ∈ (k.rest t).head?, isLineEnd c = false := by
  rw [rest_eq]
  cases hindent : k.indent with
  | nil => exact ⟨'/', rfl, by decide⟩
  | cons c w =>
    refine ⟨c, rfl, ?_⟩
    rcases k.blank c (by simp [hindent]) with rfl | rfl <;> decide

end CommentLine

namespace CommentLine
variable {k : CommentLine} {t t' : Text}

section
variable {p : Pattern} {IsHeading : Text → Prop} {position resume : Nat}

/-- No match reaches into the line of the comment: where one may start before it, the text up to the
comment has the brace that settles it, or none starts there whatever the comment says. -/
def Bars (k : CommentLine) (p : Pattern) : Prop :=
  ∀ u v, k.before = u ++ v → v ≠ [] → (u.foldl LineState.step .start).admits = true →
    '\x7b' ∈ v ∨ ∀ t, p (v ++ k.rest t) = none

def lead (k : CommentLine) (t : Text) : Text := k.before ++ (k.line t ++ k.newline.text)

theorem text_eq (t : Text) : k.text t = k.lead t ++ k.after := by simp [text, rest, lead]

theorem occurrencesFrom_rest (hfirst : ∀ c t, c ≠ 'e' → p (c :: t) = none) (ht : IsRemark t) :
    occurrencesFrom p .start position resume (k.rest t) = occurrencesFrom p .start
      (position + (k.line t ++ k.newline.text).length) resume k.after := by
  have hopening : IsInert p (k.indent ++ commentMark) := by
    intro u v huv hv rest
    cases v with
    | nil => exact absurd rfl hv
    | cons c v =>
      have hc : c ∈ k.indent ++ commentMark := by rw [huv]; simp
      refine hfirst c (v ++ rest) ?_
      cases List.mem_append.1 hc with
      | inl hc => rcases k.blank c hc with rfl | rfl <;> decide
      | inr hc =>
        rintro rfl
        exact absurd hc (by decide)
  have hcommented := commented_of_blank k.blank (s := .start) rfl
  obtain ⟨w, hw, hline⟩ : ∃ w, '\n' ∉ w ∧ t ++ k.newline.text = w ++ ['\n'] := by
    have hfree : '\n' ∉ t := fun h => absurd (ht _ h) (by decide)
    cases k.newline with
    | lf => exact ⟨t, hfree, rfl⟩
    | crlf => exact ⟨t ++ ['\r'], by simpa using hfree, by simp [Newline.text]⟩
  have hrest : k.rest t = k.indent ++ commentMark ++ (w ++ '\n' :: k.after) := by
    rw [← List.singleton_append, ← List.append_assoc w, ← hline]
    simp [rest, line]
  have hlength : (k.line t ++ k.newline.text).length =
      (k.indent ++ commentMark).length + (w.length + 1) := by
    rw [← List.length_singleton (a := '\n'), ← List.length_append, ← hline]
    simp [line]
    omega
  rw [hrest, occurrencesFrom_inert hopening, occurrencesFrom_of_commented hcommented hw, hlength,
    Nat.add_assoc]

theorem exists_occurrences_text (hp : p.EndsAtBrace IsHeading)
    (hfirst : ∀ c t, c ≠ 'e' → p (c :: t) = none) (hbars : k.Bars p) :
    ∃ spans, (∀ span ∈ spans, span.stop ≤ k.before.length) ∧ ∀ t, IsRemark t →
      occurrences p (k.text t) =
        spans ++ (occurrences p k.after).map (·.shift (k.lead t).length) := by
  obtain ⟨spans, resume, hstop, hresume, hall⟩ :=
    exists_occurrencesFrom_append (Z := fun z => ∃ t, IsRemark t ∧ z = k.rest t) hp
      (fun u v huv hv hs => (hbars u v huv hv hs).imp id fun hnone z hz => by
        obtain ⟨t, -, rfl⟩ := hz
        exact hnone t) (Nat.zero_le (0 + k.before.length))
  rw [Nat.zero_add] at hstop hresume hall
  refine ⟨spans, hstop, fun t ht => ?_⟩
  have hshift (n : Nat) (h : resume ≤ n) : occurrencesFrom p .start (n + 0) resume k.after =
      (occurrences p k.after).map (·.shift n) :=
    occurrencesFrom_shift fun q _ => by omega
  have hle : resume ≤ (k.lead t).length := by
    rw [lead, List.length_append]
    omega
  rw [occurrences, text, hall _ ⟨t, ht, rfl⟩, k.startsLine.foldl_step,
    occurrencesFrom_rest hfirst ht, ← hshift _ hle]
  simp only [lead, List.length_append, Nat.add_zero]

end

section
variable {item : ItemReader α} {IsItem : Text → α → Prop}

theorem isBody_rest (ht : IsRemark t) {b rest : Text} {as : List α}
    (hb : IsBody IsItem ('\x7d' :: rest) b as) :
    IsBody IsItem ('\x7d' :: rest) (k.line t ++ k.newline.text ++ b) as := by
  have hend : atLineEnd (k.newline.text ++ b ++ '\x7d' :: rest) = true := by
    cases k.newline <;> rfl
  have hbody := isBody_gap_append k.isGap_indent
    (.comment ht hend (isBody_gap_append k.newline.isGap_text hb))
  simpa [line] using hbody

/-- Bodies with the same lines, but for a comment. -/
inductive SameLines (k : CommentLine) (t t' : Text) : Text → Text → Prop where
  | same : SameLines k t t' b b
  | comment : EndsLine x → SameLines k t t' (x ++ (k.line t ++ k.newline.text ++ y))
      (x ++ (k.line t' ++ k.newline.text ++ y))

theorem exists_isBody (h : item.Reads IsItem) (ht : IsRemark t) (ht' : IsRemark t') {n : Nat}
    {x b rest : Text} {as : List α} (hx : EndsLine x) (hn : (x ++ k.rest t).length ≤ n)
    (hspans : ∀ a ∈ ((item.located n).readAll (x ++ k.rest t)).1,
      a.2.stop ≤ n - (k.rest t).length ∨ n - (k.rest t).length ≤ a.2.start)
    (heq : x ++ k.rest t = b ++ '\x7d' :: rest) (hb : IsBody IsItem ('\x7d' :: rest) b as) :
    ∃ b' rest', x ++ k.rest t' = b' ++ '\x7d' :: rest' ∧ IsBody IsItem ('\x7d' :: rest') b' as ∧
      SameLines k t t' b b' := by
  have hread := hb.readAll h (h.stopsAt_brace rest)
  rw [← heq] at hread
  have hbrace (r : Text) : ∃ c ∈ ('\x7d' :: r).head?, isLineEnd c = false := ⟨_, rfl, by decide⟩
  cases readsUpTo_of_spans h hx hn hspans with
  | @stop b₀ y as₀ hsplit hy hbody hread₀ =>
    obtain ⟨rfl, hrest⟩ := Prod.mk.inj (hread₀.symm.trans hread)
    cases y with
    | nil => exact absurd rfl hy
    | cons c y =>
      obtain ⟨rfl, hrest⟩ := List.cons.inj hrest
      have hsame : b ++ '\x7d' :: rest = b₀ ++ '\x7d' :: rest := by
        rw [← heq, hsplit, ← hrest]
        simp
      rw [List.append_cancel_right hsame] at hb ⊢
      exact ⟨b₀, y ++ k.rest t', by rw [hsplit]; simp, hb.replace (hbrace _) (hbrace _), .same⟩
  | @line as₀ hbody =>
    have hcomma : char? ',' (skipGap (k.rest t)) = none := k.char?_rest (by decide) t
    rw [hbody.readAll_append h hcomma, readAll_of_comment item (k.comment?_rest ht),
      readAll_gap_append item k.newline.isGap_text] at hread
    obtain ⟨b₁, hafter, hb₁⟩ := isBody_readAll h k.after
    obtain ⟨has, hrest⟩ := Prod.mk.inj hread
    rw [hrest] at hafter hb₁
    have hnl : k.newline.text ++ k.after = k.newline.text ++ b₁ ++ '\x7d' :: rest := by
      rw [hafter, List.append_assoc]
    have hall {t : Text} (ht : IsRemark t) (hbody : IsBody IsItem (k.rest t) x as₀) :
        x ++ k.rest t = x ++ (k.line t ++ k.newline.text ++ b₁) ++ '\x7d' :: rest ∧
          IsBody IsItem ('\x7d' :: rest) (x ++ (k.line t ++ k.newline.text ++ b₁)) as := by
      have hrest : k.rest t = k.line t ++ k.newline.text ++ b₁ ++ '\x7d' :: rest := by
        rw [CommentLine.rest, hnl]
        simp
      rw [hrest] at hbody
      refine ⟨by rw [hrest]; simp, ?_⟩
      rw [← has]
      exact hbody.append (isBody_rest ht hb₁)
    have hsame : b = x ++ (k.line t ++ k.newline.text ++ b₁) :=
      List.append_cancel_right (heq.symm.trans (hall ht hbody).1)
    obtain ⟨heq', hbody'⟩ :=
      hall ht' (hbody.replace (k.exists_head_rest t) (k.exists_head_rest t'))
    exact ⟨_, rest, heq', hbody', hsame ▸ .comment hx⟩

end

theorem isLine_line (ht : IsRemark t) : IsLine (k.line t) := by
  rw [line, ← List.append_assoc]
  exact isLine_comment k.blank ht

theorem trimStart_line (t : Text) : trimStart (k.line t) = commentMark ++ t := by
  have hblank : ∀ c ∈ k.indent, isBlank c = true := fun c hc => by
    rcases k.blank c hc with rfl | rfl <;> decide
  exact trimStart_append_cons hblank (by decide) ('/' :: t)

theorem indentOf_line (t : Text) : Layout.indentOf (k.line t) = k.indent := by
  refine (takeWhile_dropWhile_iff.2 ⟨rfl, fun c hc => ?_, fun c hc => ?_⟩).1
  · simpa using k.blank c hc
  · obtain rfl := Option.some.inj hc
    decide

theorem isCommentLine_line {isEntry : Text → Bool} (hentry : ∀ u, isEntry ('/' :: u) = false)
    (t : Text) : Layout.IsCommentLine isEntry k.indent (k.line t) where
  filled := by simp [isAllBlank, line, commentMark, isBlank]
  entry := by
    rw [trimStart_line]
    exact hentry ('/' :: t)
  comment := by
    rw [trimStart_line]
    rfl
  indent := indentOf_line t

theorem pair_infix_text_iff (ht : IsRemark t) : ['\r', '\n'] <:+: k.text t ↔
    ['\r', '\n'] <:+: k.before ∨ ['\r', '\n'] <:+: k.newline.text ++ k.after := by
  have hline := k.isLine_line ht
  have hfree : ¬['\r', '\n'] <:+: k.line t := fun h => hline.1 (h.subset (by simp))
  have hlast : k.before.getLast? ≠ some '\r' := by
    cases k.startsLine with
    | inl h => simp [h]
    | inr h => simp [h]
  rw [text, rest, pair_infix_append_iff, pair_infix_append_iff]
  simp [hfree, hline.2, hlast]

theorem newline_text (ht : IsRemark t) (ht' : IsRemark t') :
    Newline.detect (k.text t) = .detect (k.text t') := by
  have hiff : Newline.detect (k.text t) = .crlf ↔ Newline.detect (k.text t') = .crlf := by
    rw [Newline.detect_eq_crlf_iff, Newline.detect_eq_crlf_iff, pair_infix_text_iff ht,
      pair_infix_text_iff ht']
  cases h : Newline.detect (k.text t') with
  | crlf => exact hiff.2 h
  | lf =>
    cases h' : Newline.detect (k.text t) with
    | lf => rfl
    | crlf => exact absurd (h.symm.trans (hiff.1 h')) (by decide)

theorem SameLines.detect {isEntry : Text → Bool} (hentry : ∀ u, isEntry ('/' :: u) = false)
    (ht : IsRemark t) (ht' : IsRemark t') {b b' : Text} (h : k.SameLines t t' b b') :
    Layout.detect (k.text t) b isEntry = Layout.detect (k.text t') b' isEntry := by
  refine Layout.detect_congr (newline_text ht ht') ?_
  cases h with
  | same => rfl
  | @comment x y hx =>
    have hlines {t : Text} (ht : IsRemark t) :
        lines (x ++ (k.line t ++ k.newline.text ++ y)) = lines x ++ k.line t :: lines y := by
      rw [hx.lines_append, k.newline.lines_append (isLine_line ht)]
    rw [hlines ht, hlines ht']
    exact Layout.indentOf_indentLine (isCommentLine_line hentry t) (isCommentLine_line hentry t')
      (lines x) (lines y)

section
variable {d : Declaration α} {IsHeading : Text → Prop} {IsItem : Text → α → Prop}

/-- A kind of declaration whose headings start with a word and end at a brace, and whose items have
a grammar. -/
structure IsReadable (d : Declaration α) (IsHeading : Text → Prop) (IsItem : Text → α → Prop) :
    Prop where
  item : d.item.Reads IsItem
  header : d.header.EndsAtBrace IsHeading
  first : ∀ c t, c ≠ 'e' → d.header (c :: t) = none

structure FindsAs (d : Declaration α) (s' s body : Text) (items : List α) (found' : Found α) :
    Prop where
  find : d.find s' = .ok found'
  items : found'.items = items
  layout : ∀ {isEntry : Text → Bool}, (∀ u, isEntry ('/' :: u) = false) →
    Layout.detect s' found'.body isEntry = Layout.detect s body isEntry

theorem exists_findsAs (h : IsReadable d IsHeading IsItem) (ht : IsRemark t) (ht' : IsRemark t')
    {header : Span} {body b rest : Text} {items : List α}
    (hheader : occurrences d.header (k.text t') = [header])
    (hsource : (k.text t').drop header.stop = b ++ '\x7d' :: rest)
    (hbody : IsBody IsItem ('\x7d' :: rest) b items) (hsame : k.SameLines t t' body b) :
    ∃ found', FindsAs d (k.text t') (k.text t) body items found' :=
  ⟨⟨(k.text t').take header.stop, b, '\x7d' :: rest, items⟩,
    (Declaration.find_eq_ok_iff h.item hheader).2 ⟨rest, rfl, rfl, hsource, hbody⟩, rfl,
    fun hentry => (hsame.detect hentry ht ht').symm⟩

theorem drop_text {n : Nat} (hn : n ≤ k.before.length) (t : Text) :
    (k.text t).drop n = k.before.drop n ++ k.rest t := by
  rw [text, List.drop_append_of_le_length hn]

theorem exists_isBody_of_header (h : d.item.Reads IsItem) (ht : IsRemark t) (ht' : IsRemark t')
    {header : Span} (hheader : occurrences d.header (k.text t) = [header])
    (hle : header.stop ≤ k.before.length) (hspans : ∀ span ∈ d.spans (k.text t),
      span.stop ≤ k.before.length ∨ k.before.length ≤ span.start) {b rest : Text} {as : List α}
    (hsource : (k.text t).drop header.stop = b ++ '\x7d' :: rest)
    (hb : IsBody IsItem ('\x7d' :: rest) b as) :
    ∃ b' rest', (k.text t').drop header.stop = b' ++ '\x7d' :: rest' ∧
      IsBody IsItem ('\x7d' :: rest') b' as ∧ SameLines k t t' b b' := by
  have hends : EndsLine (k.before.drop header.stop) := by
    have hstarts := k.startsLine
    rw [← List.take_append_drop header.stop k.before] at hstarts
    exact hstarts.of_append
  have hlength : (k.text t).length = k.before.length + (k.rest t).length := by
    rw [text, List.length_append]
  have hfits : (k.before.drop header.stop ++ k.rest t).length ≤ (k.text t).length := by
    rw [hlength, List.length_append, List.length_drop]
    omega
  have hapart : ∀ a ∈ ((d.item.located (k.text t).length).readAll
      (k.before.drop header.stop ++ k.rest t)).1,
        a.2.stop ≤ (k.text t).length - (k.rest t).length ∨
          (k.text t).length - (k.rest t).length ≤ a.2.start := by
    intro a ha
    have hmem : a.2 ∈ d.spans (k.text t) := by
      rw [Declaration.spans, hheader, List.flatMap_singleton, drop_text hle]
      exact List.mem_map_of_mem ha
    have houtside := hspans a.2 hmem
    omega
  rw [drop_text hle] at hsource ⊢
  exact exists_isBody h ht ht' hends hfits hapart hsource hb

/-- The same declaration, with the same layout, is found whatever a comment says, if neither a
heading nor an item reaches into its line. -/
theorem find_text (h : IsReadable d IsHeading IsItem) (hbars : k.Bars d.header) (ht : IsRemark t)
    (ht' : IsRemark t') (hspans : ∀ span ∈ d.spans (k.text t),
      span.stop ≤ k.before.length ∨ k.before.length ≤ span.start)
    {found : Found α} (hfind : d.find (k.text t) = .ok found) :
    ∃ found', FindsAs d (k.text t') (k.text t) found.body found.items found' := by
  obtain ⟨spans, hstop, hall⟩ := exists_occurrences_text h.header h.first hbars
  obtain ⟨header, rest, hheader, -, -, hsource, hbody⟩ := Declaration.exists_of_find h.item hfind
  have hone := hall t ht
  rw [hheader] at hone
  cases spans with
  | cons first spans =>
    -- the heading is in front of the comment
    obtain ⟨rfl, hnil⟩ := List.cons.inj hone
    obtain ⟨rfl, hafter⟩ := List.append_eq_nil_iff.1 hnil.symm
    have hheader' : occurrences d.header (k.text t') = [header] := by
      rw [hall t' ht', List.map_eq_nil_iff.1 hafter]
      rfl
    obtain ⟨b', rest', hsource', hbody', hsame⟩ := exists_isBody_of_header h.item ht ht' hheader
      (hstop header List.mem_cons_self) hspans hsource hbody
    exact exists_findsAs h ht ht' hheader' hsource' hbody' hsame
  | nil =>
    -- the heading is behind the comment, along with all of the body
    obtain ⟨span, hafter, rfl⟩ : ∃ span, occurrences d.header k.after = [span] ∧
        span.shift (k.lead t).length = header := List.map_eq_singleton_iff.1 hone.symm
    have hdrop (t : Text) :
        (k.text t).drop (span.shift (k.lead t).length).stop = k.after.drop span.stop := by
      rw [text_eq, Span.shift, List.drop_append]
      simp
    have hheader' : occurrences d.header (k.text t') = [span.shift (k.lead t').length] := by
      rw [hall t' ht', hafter]
      rfl
    rw [hdrop] at hsource
    exact exists_findsAs h ht ht' hheader' (by rw [hdrop, hsource]) hbody .same

end

end CommentLine
end IconCatalog.Source
