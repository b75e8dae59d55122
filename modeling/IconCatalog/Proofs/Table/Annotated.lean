import IconCatalog.Proofs.Table.Lines
/-!
Printed tables with comments put behind their lines. The scan for the end of an expression knows no
comments, so a comment behind the second expression of an entry is taken into it. Where such a
comment opens nothing that it does not close and does not close the entry, reading refuses the text
or gives all names back.
-/
namespace IconCatalog
open Text Source

namespace Table

/-- A comment that an expression takes in, up to its end or to a comma with layout behind it. -/
def IsTakenIn (note : Text) : Prop :=
  Passes endsExpression .outside 0 note ∨
    ∃ x w, note = x ++ ',' :: w ∧ Passes endsExpression .outside 0 x ∧ IsGap w

/-- A comment in which an entry cannot go on: there is a comma with something other than a closing
brace behind it, or a bracket that closes nothing. -/
def IsRefused (note : Text) : Prop :=
  ∃ x c w, note = x ++ c :: w ∧ Passes endsExpression .outside 0 x ∧
    (c = ',' ∧ (∃ d ∈ (skipGap w).head?, d ≠ '\x7d') ∨ c = ')' ∨ c = ']')

/-- A comment may stand behind any line but the first two of an entry; behind the third one, it has
to be taken in. -/
structure IsPlaced (l note : Text) : Prop where
  key : TableFile.isEntryLine (trimStart l) = false
  light : startsWith (trimStart l) lightLabel = false
  dark : startsWith (trimStart l) darkLabel = true → IsTakenIn note

def ArePlaced (ls : List (Text × Option Text)) : Prop :=
  ∀ l note, (l, some note) ∈ ls → IsPlaced l note

/-- Every comment behind the third line of an entry opens nothing that it does not close, and closes
neither an entry nor the table. -/
def AreHarmless (ls : List (Text × Option Text)) : Prop :=
  ∀ l note, (l, some note) ∈ ls → startsWith (trimStart l) darkLabel = true →
    IsTakenIn note ∨ IsRefused note

variable {layout : Layout} {after : Text}

theorem isLineEnd_of_mem_trailing {note : Option Text}
    (hnote : ∀ t ∈ note, ∀ c ∈ t, isLineEnd c = false) :
    ∀ c ∈ trailing note, isLineEnd c = false := by
  cases note with
  | none => exact fun _ h => nomatch h
  | some note =>
    have hmark : ∀ c ∈ [' ', '/', '/', ' '], isLineEnd c = false := forall_of_all (by decide)
    intro c hc
    cases List.mem_append.1 (show c ∈ [' ', '/', '/', ' '] ++ note from hc) with
    | inl hc => exact hmark c hc
    | inr hc => exact hnote note rfl c hc

theorem isBody_trailing {note : Option Text}
    (hnote : ∀ t ∈ note, ∀ c ∈ t, isLineEnd c = false) (nl : Newline) :
    IsBody IsEntry after (trailing note ++ nl.text) [] := by
  cases note with
  | none => exact Series.isBody_newline nl
  | some note =>
    have hline : ∀ c ∈ ' ' :: note, isLineEnd c = false := fun c hc =>
      isLineEnd_of_mem_trailing hnote c (.tail _ (.tail _ (.tail _ hc)))
    exact .gap (by decide)
      (.comment hline (Series.atLineEnd_newline nl after) (Series.isBody_newline nl))

theorem isBody_noted (hindent : IsGap layout.indent) {l : Text} (hl : Series.IsNote layout.indent l)
    {note : Option Text} (hnote : ∀ t ∈ note, ∀ c ∈ t, isLineEnd c = false) :
    IsBody IsEntry after (l ++ trailing note ++ layout.newline.text) [] := by
  rcases hl with rfl | ⟨text, rfl, htext⟩
  · exact isBody_trailing hnote layout.newline
  · have hline : ∀ c ∈ text ++ trailing note, isLineEnd c = false := fun c hc =>
      (List.mem_append.1 hc).elim (htext c) (isLineEnd_of_mem_trailing hnote c)
    have hbody : IsBody IsEntry after (commentMark ++ (text ++ trailing note) ++
        layout.newline.text) [] :=
      .comment hline (Series.atLineEnd_newline layout.newline after)
        (Series.isBody_newline layout.newline)
    simpa using isBody_gap_append hindent hbody

theorem field?_label {label v e : Text} (hv : IsGap v) (hlabel : ∃ c ∈ label.head?, isGap c = false)
    (he : Source.IsSettled e) (t : Text) :
    field? label (v ++ (label ++ ':' :: ' ' :: (e ++ t))) = expression? (e ++ t) := by
  have hskip : skipGap (label ++ ':' :: ' ' :: (e ++ t)) = label ++ ':' :: ' ' :: (e ++ t) := by
    refine skipGap_of_head fun c hc => ?_
    obtain ⟨d, hd, hgap⟩ := hlabel
    rw [List.head?_append, Option.mem_def.1 hd] at hc
    obtain rfl := Option.some.inj hc
    exact hgap
  have hcolon : char? ':' (skipGap (':' :: ' ' :: (e ++ t))) = some (' ' :: (e ++ t)) :=
    (char?_skipGap_iff (by decide)).2 ⟨[], isGap_nil, rfl⟩
  have hexpression : skipGap (' ' :: (e ++ t)) = e ++ t := by
    rw [← List.singleton_append, skipGap_append isGap_space,
      skipGap_append_of_filled he.expression.filled, he.start]
  simp only [field?, skipGap_append hv, hskip, after?_append, Option.bind_eq_bind,
    Option.bind_some, hcolon, hexpression]

theorem passes_trailing {e : Text} (he : Source.IsSettled e) {x : Text} :
    Passes endsExpression .outside 0 (e ++ ' ' :: (commentMark ++ ' ' :: x)) ↔
      Passes endsExpression .outside 0 x := by
  have hmark : ∀ c ∈ [' ', '/', '/', ' '], IsNeutral endsExpression c := fun c hc =>
    isNeutral_of_not_mem (forall_of_all (p := (· ∉ scanMarks)) (by decide) c hc)
  rw [passes_append (isExpression_iff.1 he.expression).1]
  exact passes_neutral_append hmark

theorem filled_append {e : Text} (he : Source.IsSettled e) (t : Text) :
    isAllBlank (e ++ t) = false := by
  have hfilled := he.expression.filled
  rw [isAllBlank] at hfilled ⊢
  rw [List.all_append, hfilled, Bool.false_and]

def notedExpressions (layout : Layout) (e : Entry) (first second third : Option Text)
    (outer : Text) : Text :=
  ':' :: ' ' :: '\x7b' :: (trailing first ++ lightPart (trailing second ++
    darkPart (trailing third ++ (layout.newline.text ++ (layout.indent ++ '\x7d' :: outer)))))
where
  /-- The second line up to the comma, and what follows. -/
  lightPart (t : Text) : Text :=
    layout.newline.text ++ layout.indent ++ layout.indent ++
      (lightLabel ++ ':' :: ' ' :: (e.light ++ ',' :: t))
  /-- The third line up to the comment, and what follows. -/
  darkPart (t : Text) : Text :=
    layout.newline.text ++ layout.indent ++ layout.indent ++
      (darkLabel ++ ':' :: ' ' :: (e.dark ++ t))

theorem annotated_entryLines (layout : Layout) (e : Entry) (more : Bool)
    (first second third fourth : Option Text) :
    annotated layout.newline ((entryLines layout e more).zip [first, second, third, fourth]) =
      layout.indent ++ doubleQuote :: (e.name ++ doubleQuote ::
        (notedExpressions layout e first second third (if more then [','] else []) ++
          (trailing fourth ++ layout.newline.text))) := by
  simp [annotated, entryLines, notedExpressions, notedExpressions.lightPart,
    notedExpressions.darkPart]

theorem expressions?_eq (t : Text) : expressions? (':' :: ' ' :: '\x7b' :: t) =
    (field? lightLabel t).bind fun light => (char? ',' (skipGap light.2)).bind fun t =>
      (field? darkLabel t).bind fun dark =>
        (char? '\x7d' (skipGap (skipComma dark.2))).bind fun t =>
          some ((light.1, dark.1), skipComma t) := rfl

theorem field?_trailing {label : Text} (hlabel : ∃ c ∈ label.head?, c ≠ '/') (note t : Text) :
    field? label (trailing (some note) ++ t) = none := by
  have hskip : skipGap (trailing (some note) ++ t) = '/' :: '/' :: ' ' :: (note ++ t) := rfl
  cases h : after? label (skipGap (trailing (some note) ++ t)) with
  | none => simp only [field?, h, Option.bind_eq_bind, Option.bind_none]
  | some r =>
    obtain ⟨c, hc, hne⟩ := hlabel
    have hhead := congrArg List.head? (after?_eq_some_iff.1 h)
    rw [hskip, List.head?_append, Option.mem_def.1 hc] at hhead
    exact absurd (Option.some.inj hhead).symm hne

theorem char?_brace_of_refused {w : Text} (hw : ∃ d ∈ (skipGap w).head?, d ≠ '\x7d') (t : Text) :
    char? '\x7d' (skipGap (skipComma (',' :: (w ++ t)))) = none := by
  obtain ⟨d, hd, hne⟩ := hw
  have hcomma : skipComma (',' :: (w ++ t)) = w ++ t := by
    rw [skipComma, skipGap_cons (by decide), char?_cons_self, Option.getD_some]
  have hfilled : (w.dropWhile isGap).isEmpty = false := by
    cases h : w.dropWhile isGap with
    | nil => simp [skipGap, h] at hd
    | cons c u => rfl
  rw [hcomma, char?_eq_none_iff, skipGap, List.dropWhile_append, hfilled, if_neg (by simp),
    ← skipGap, List.head?_append, Option.mem_def.1 hd]
  exact fun h => hne (Option.some.inj h)

theorem expression?_of_refused {e : Text} (he : Source.IsSettled e) {note : Text}
    (hnote : IsRefused note) (t : Text) : ∀ found ∈ expression? (e ++ (trailing (some note) ++ t)),
      char? '\x7d' (skipGap (skipComma found.2)) = none := by
  obtain ⟨x, c, w, rfl, hx, hc⟩ := hnote
  have hpasses := (passes_trailing he).2 hx
  have hsplit : e ++ (trailing (some (x ++ c :: w)) ++ t) =
      e ++ ' ' :: (commentMark ++ ' ' :: x) ++ c :: (w ++ t) := by simp [trailing]
  rw [hsplit]
  rcases hc with ⟨rfl, hbrace⟩ | hc
  · have hexpression : IsExpression (e ++ ' ' :: (commentMark ++ ' ' :: x)) :=
      isExpression_iff.2 ⟨hpasses, filled_append he _⟩
    have hread := expression?_eq_some_iff.2
      ⟨_, rfl, hexpression, ⟨',', show ',' ∈ (',' :: (w ++ t)).head? from rfl, by decide⟩, rfl⟩
    intro found hfound
    rw [hread] at hfound
    obtain rfl := Option.some.inj hfound
    exact char?_brace_of_refused hbrace t
  · have hcut : cutAt? endsExpression .outside 0
        (e ++ ' ' :: (commentMark ++ ' ' :: x) ++ c :: (w ++ t)) = none := by
      rcases hc with rfl | rfl <;>
        exact cutAt?_of_closing hpasses (by decide) (by decide) (by decide) (by decide) _
    have hnone : expression? (e ++ ' ' :: (commentMark ++ ' ' :: x) ++ c :: (w ++ t)) = none := by
      unfold expression?
      rw [hcut]
    intro found hfound
    rw [hnone] at hfound
    exact absurd hfound (Option.not_mem_none found)

theorem expressions?_lightPart (hlayout : Layout.IsUsable layout.indent) {e : Entry}
    (he : Source.IsSettled e.light) (t : Text) :
    expressions? (':' :: ' ' :: '\x7b' :: notedExpressions.lightPart layout e t) =
      (field? darkLabel t).bind fun dark =>
        (char? '\x7d' (skipGap (skipComma dark.2))).bind fun t =>
          some ((e.light, dark.1), skipComma t) := by
  have hread := he.expression? (w := []) (fun _ h => nomatch h) (c := ',') (by decide) t
  rw [List.append_nil] at hread
  have hcomma : char? ',' (skipGap (',' :: t)) = some t := by
    rw [skipGap_cons (by decide), char?_cons_self]
  rw [expressions?_eq, notedExpressions.lightPart,
    field?_label (isGap_start hlayout) ⟨'l', rfl, by decide⟩ he, hread]
  simp only [Option.bind_some, hcomma]

theorem expressions?_of_refused (hlayout : Layout.IsUsable layout.indent) {e : Entry}
    (hlight : Source.IsSettled e.light) (hdark : Source.IsSettled e.dark)
    {first second third : Option Text}
    (h : first ≠ none ∨ second ≠ none ∨ ∃ note ∈ third, IsRefused note) (outer t : Text) :
    expressions? (notedExpressions layout e first second third outer ++ t) = none := by
  have hsplit : notedExpressions layout e first second third outer ++ t =
      ':' :: ' ' :: '\x7b' :: (trailing first ++ notedExpressions.lightPart layout e
        (trailing second ++ notedExpressions.darkPart layout e (trailing third ++
          (layout.newline.text ++ (layout.indent ++ '\x7d' :: (outer ++ t)))))) := by
    simp [notedExpressions, notedExpressions.lightPart, notedExpressions.darkPart]
  rw [hsplit]
  cases first with
  | some note => rw [expressions?_eq, field?_trailing ⟨'l', rfl, by decide⟩, Option.bind_none]
  | none =>
    rw [trailing, List.nil_append, expressions?_lightPart hlayout hlight]
    cases second with
    | some note => rw [field?_trailing ⟨'d', rfl, by decide⟩, Option.bind_none]
    | none =>
      obtain ⟨note, rfl, hnote⟩ : ∃ note ∈ third, IsRefused note := by simpa using h
      rw [trailing, List.nil_append, notedExpressions.darkPart,
        field?_label (isGap_start hlayout) ⟨'d', rfl, by decide⟩ hdark, Option.bind_eq_none_iff]
      intro found hfound
      rw [expression?_of_refused hdark hnote _ found hfound, Option.bind_none]

theorem head?_readAll_of_none {e : Entry} (he : e.IsPrintable) (hindent : IsGap layout.indent)
    {t : Text} (ht : ∀ c ∈ t.head?, isNameChar c = false) (h : expressions? t = none) :
    (entries.readAll (layout.indent ++ doubleQuote :: (e.name ++ doubleQuote :: t))).2.head? =
      some doubleQuote := by
  have hkey : key? (doubleQuote :: (e.name ++ doubleQuote :: t)) = some (e.name, t) := by
    simpa using he.isKey.key? ht
  have hskip : skipGap (doubleQuote :: (e.name ++ doubleQuote :: t)) =
      doubleQuote :: (e.name ++ doubleQuote :: t) :=
    skipGap_cons (by decide) _
  have hcomment : comment? (doubleQuote :: (e.name ++ doubleQuote :: t)) = none :=
    comment?_eq_none_of_head (by simp [doubleQuote])
  have hread : entries.read? (doubleQuote :: (e.name ++ doubleQuote :: t)) = none := by
    simp only [entries, entryAt?, hkey, Option.bind_eq_bind, Option.bind_some, h, Option.bind_none]
  rw [readAll_gap_append entries hindent, readAll_of_none (by rw [hskip]; exact hcomment)
    (by rw [hskip]; exact hread), hskip]
  rfl

theorem exists_taken {dark : Text} (hdark : Source.IsSettled dark) {note : Option Text}
    (hnote : ∀ t ∈ note, IsTakenIn t) {gap : Text} (hgap : IsGap gap) : ∃ z ahead w,
      ' ' :: (dark ++ (trailing note ++ gap)) = z ++ (ahead ++ w) ∧ IsExpression z ∧
        IsComma ahead ∧ IsGap w := by
  have hspace : ∀ c ∈ [' '], isBlank c = true := forall_of_all (by decide)
  have hexpression {x : Text} (hx : Passes endsExpression .outside 0 x) :
      IsExpression (' ' :: (dark ++ ' ' :: (commentMark ++ ' ' :: x))) :=
    (isExpression_blank_append hspace).2 <|
      isExpression_iff.2 ⟨(passes_trailing hdark).2 hx, filled_append hdark _⟩
  cases note with
  | none =>
    exact ⟨' ' :: dark, [], gap, by simp [trailing],
      (isExpression_blank_append hspace).2 hdark.expression, .left_out, hgap⟩
  | some note =>
    rcases hnote note rfl with hpasses | ⟨x, w, rfl, hpasses, hw⟩
    · exact ⟨_, [], gap, by simp [trailing], hexpression hpasses, .left_out, hgap⟩
    · exact ⟨_, [','], w ++ gap, by simp [trailing], hexpression hpasses, .written isGap_nil,
        hw.append hgap⟩

theorem exists_isEntry_taken (hlayout : Layout.IsUsable layout.indent) {e : Entry}
    (he : e.IsPrintable) {note : Option Text} (hnote : ∀ t ∈ note, IsTakenIn t) {outer : Text}
    (houter : IsComma outer) :
    ∃ dark, IsEntry (doubleQuote :: (e.name ++ doubleQuote ::
      notedExpressions layout e none none note outer)) ⟨e.name, e.light, dark⟩ := by
  have hnl : IsGap layout.newline.text := layout.newline.isGap_text
  have hstart := isGap_start hlayout
  obtain ⟨z, ahead, w, hsplit, hz, hahead, hw⟩ :=
    exists_taken he.dark hnote (hnl.append hlayout.isGap)
  have hlight : IsField lightLabel _ e.light := isField_printed hstart isGap_nil he.light
  have hdark : IsField darkLabel _ _ := .mk hstart isGap_nil hz
  have hexpressions := IsExpressions.mk isGap_nil isGap_space hlight hdark hahead hw houter
  have hentry := IsEntry.mk he.isKey hexpressions
  have htext : ' ' :: (e.dark ++ (trailing note ++ (layout.newline.text ++ (layout.indent ++
      '\x7d' :: outer)))) = z ++ (ahead ++ (w ++ '\x7d' :: outer)) := by
    have happend := congrArg (· ++ '\x7d' :: outer) hsplit
    simpa using happend
  refine ⟨trimEnd (skipGap z), ?_⟩
  rw [notedExpressions, notedExpressions.darkPart, notedExpressions.lightPart, htext]
  simpa [trailing] using hentry

theorem arePlaced_append {ls ms : List (Text × Option Text)} :
    ArePlaced (ls ++ ms) ↔ ArePlaced ls ∧ ArePlaced ms := by
  simp only [ArePlaced, List.mem_append]
  exact ⟨fun h => ⟨fun l note hl => h l note (.inl hl), fun l note hl => h l note (.inr hl)⟩,
    fun h l note hl => hl.elim (h.1 l note) (h.2 l note)⟩

theorem arePlaced_cons {l : Text} {note : Option Text} {ls : List (Text × Option Text)} :
    ArePlaced ((l, note) :: ls) ↔ (∀ t ∈ note, IsPlaced l t) ∧ ArePlaced ls := by
  have hone : ArePlaced [(l, note)] ↔ ∀ t ∈ note, IsPlaced l t := by
    cases note <;> simp [ArePlaced]
  have hsplit : ArePlaced ([(l, note)] ++ ls) ↔ _ := arePlaced_append
  rwa [hone] at hsplit

theorem isPlaced_of_isNote {indent l note : Text} (hindent : Layout.IsUsable indent)
    (hl : Series.IsNote indent l) : IsPlaced l note := by
  have hentry := Series.isEntry_of_isNote TableFile.passesNotes_isEntryLine hl hindent
  rcases hl.trimStart hindent with h | ⟨more, h⟩
  · exact ⟨hentry, by rw [h]; rfl, by rw [h]; exact fun h => nomatch h⟩
  · exact ⟨hentry, by rw [h]; rfl, by rw [h]; exact fun h => nomatch h⟩

theorem trimStart_label (hlayout : Layout.IsUsable layout.indent) {label : Text}
    (hlabel : ∃ c ∈ label.head?, isBlank c = false) (t : Text) :
    trimStart (layout.indent ++ (layout.indent ++ (label ++ t))) = label ++ t := by
  obtain ⟨c, hc, hblank⟩ := hlabel
  cases label with
  | nil => exact nomatch hc
  | cons d label =>
    obtain rfl := Option.some.inj hc
    rw [← List.append_assoc]
    refine trimStart_append_cons (fun x hx => ?_) hblank (label ++ t)
    exact (List.mem_append.1 hx).elim (hlayout.isBlank x) (hlayout.isBlank x)

theorem trimStart_light (hlayout : Layout.IsUsable layout.indent) (t : Text) :
    trimStart (layout.indent ++ (layout.indent ++ (lightLabel ++ t))) = lightLabel ++ t :=
  trimStart_label hlayout ⟨'l', rfl, by decide⟩ t

theorem trimStart_dark (hlayout : Layout.IsUsable layout.indent) (t : Text) :
    trimStart (layout.indent ++ (layout.indent ++ (darkLabel ++ t))) = darkLabel ++ t :=
  trimStart_label hlayout ⟨'d', rfl, by decide⟩ t

theorem arePlaced_of_notes (hlayout : Layout.IsUsable layout.indent)
    {ls : List (Text × Option Text)} (hls : ∀ l ∈ ls.map (·.1), Series.IsNote layout.indent l) :
    ArePlaced ls := fun l _ h => isPlaced_of_isNote hlayout (hls l (List.mem_map.2 ⟨_, h, rfl⟩))

theorem arePlaced_entryLines_iff (hlayout : Layout.IsUsable layout.indent) (e : Entry) (more : Bool)
    (first second third fourth : Option Text) :
    ArePlaced ((entryLines layout e more).zip [first, second, third, fourth]) ↔
      first = none ∧ second = none ∧ ∀ note ∈ third, IsTakenIn note := by
  have hkey (t note : Text) : ¬IsPlaced (layout.indent ++ doubleQuote :: t) note := fun h => by
    have hline := h.key
    rw [trimStart_append_cons hlayout.isBlank (by decide)] at hline
    exact nomatch hline
  have hlight (t note : Text) :
      ¬IsPlaced (layout.indent ++ (layout.indent ++ (lightLabel ++ t))) note := fun h => by
    have hline := h.light
    rw [trimStart_light hlayout] at hline
    exact nomatch hline
  have hdark (t note : Text) :
      IsPlaced (layout.indent ++ (layout.indent ++ (darkLabel ++ t))) note ↔ IsTakenIn note := by
    have hline := trimStart_dark hlayout t
    exact ⟨fun h => h.dark (by rw [hline]; rfl),
      fun h => ⟨by rw [hline]; rfl, by rw [hline]; rfl, fun _ => h⟩⟩
  have hclose (t note : Text) : IsPlaced (layout.indent ++ '\x7d' :: t) note := by
    have hline := trimStart_append_cons hlayout.isBlank (c := '\x7d') (by decide) t
    exact ⟨by rw [hline]; rfl, by rw [hline]; rfl, by rw [hline]; exact fun h => nomatch h⟩
  have hnever {l : Text} (hl : ∀ t, ¬IsPlaced l t) (note : Option Text) :
      (∀ t ∈ note, IsPlaced l t) ↔ note = none := by
    cases note <;> simp [hl]
  have hnil : ArePlaced [] := fun _ _ h => nomatch h
  simp only [entryLines, List.zip_cons_cons, List.zip_nil_left, arePlaced_cons, hnever (hkey _),
    hnever (hlight _), hdark, hclose, hnil, implies_true, and_true]

theorem exists_refused (hlayout : Layout.IsUsable layout.indent) {e : Entry} {more : Bool}
    {first second third fourth : Option Text}
    (hharmless : AreHarmless ((entryLines layout e more).zip [first, second, third, fourth]))
    (h : ¬(first = none ∧ second = none ∧ ∀ note ∈ third, IsTakenIn note)) :
    first ≠ none ∨ second ≠ none ∨ ∃ note ∈ third, IsRefused note := by
  by_cases hfirst : first = none
  · by_cases hsecond : second = none
    · obtain ⟨note, hnote, hnot⟩ : ∃ note ∈ third, ¬IsTakenIn note := by
        simpa [hfirst, hsecond] using h
      have hmem : (layout.indent ++ (layout.indent ++ (darkLabel ++ ':' :: ' ' :: e.dark)),
          some note) ∈ (entryLines layout e more).zip [first, second, third, fourth] := by
        simp [entryLines, Option.mem_def.1 hnote]
      have htold := hharmless _ note hmem (by rw [trimStart_dark hlayout]; rfl)
      exact .inr (.inr ⟨note, hnote, htold.resolve_left hnot⟩)
    · exact .inr (.inl hsecond)
  · exact .inl hfirst

theorem exists_entryLines {e : Entry} {more : Bool} {ls : List (Text × Option Text)}
    (h : ls.map (·.1) = entryLines layout e more) : ∃ first second third fourth,
      ls = (entryLines layout e more).zip [first, second, third, fourth] := by
  obtain ⟨⟨_, first⟩, ls₁, rfl, rfl, h₁⟩ := List.map_eq_cons_iff.1 h
  obtain ⟨⟨_, second⟩, ls₂, rfl, rfl, h₂⟩ := List.map_eq_cons_iff.1 h₁
  obtain ⟨⟨_, third⟩, ls₃, rfl, rfl, h₃⟩ := List.map_eq_cons_iff.1 h₂
  obtain ⟨⟨_, fourth⟩, ls₄, rfl, rfl, h₄⟩ := List.map_eq_cons_iff.1 h₃
  obtain rfl := List.map_eq_nil_iff.1 h₄
  exact ⟨first, second, third, fourth, rfl⟩

theorem isBody_annotated_notes (hindent : IsGap layout.indent) {ls : List (Text × Option Text)}
    (hls : ∀ l ∈ ls.map (·.1), Series.IsNote layout.indent l) (hcomments : AreComments ls) :
    IsBody IsEntry after (annotated layout.newline ls) [] := by
  induction ls with
  | nil => exact .nil
  | cons x ls ih =>
    obtain ⟨l, note⟩ := x
    have hnote : ∀ t ∈ note, ∀ c ∈ t, isLineEnd c = false := fun t ht =>
      hcomments l t (by rw [Option.mem_def.1 ht]; exact List.mem_cons_self)
    have hrest := ih (fun m hm => hls m (.tail _ hm)) fun m n h => hcomments m n (.tail _ h)
    exact (isBody_noted hindent (hls l List.mem_cons_self) hnote).append hrest

theorem annotated_append (nl : Newline) (ls ms : List (Text × Option Text)) :
    annotated nl (ls ++ ms) = annotated nl ls ++ annotated nl ms := List.flatMap_append

/-- Either the comments behind the lines of an entry are where they may stand, and it is read with
its name and its first expression, or reading ends in front of it. -/
theorem read_annotated_entry (hlayout : Layout.IsUsable layout.indent) {e : Entry}
    (he : e.IsPrintable) {more : Bool} {ls : List (Text × Option Text)}
    (hls : ls.map (·.1) = entryLines layout e more) (hcomments : AreComments ls)
    (hharmless : AreHarmless ls) :
    (ArePlaced ls ∧ ∃ dark, ∀ after,
        IsBody IsEntry after (annotated layout.newline ls) [⟨e.name, e.light, dark⟩]) ∨
      (¬ArePlaced ls ∧ ∀ after,
        (entries.readAll (annotated layout.newline ls ++ after)).2.head? = some doubleQuote) := by
  have hindent : IsGap layout.indent := hlayout.isGap
  obtain ⟨first, second, third, fourth, rfl⟩ := exists_entryLines hls
  have hplaced := arePlaced_entryLines_iff hlayout e more first second third fourth
  rw [annotated_entryLines]
  by_cases h : first = none ∧ second = none ∧ ∀ note ∈ third, IsTakenIn note
  · refine .inl ⟨hplaced.2 h, ?_⟩
    obtain ⟨rfl, rfl, htaken⟩ := h
    have hcomma : IsComma (if more then [','] else []) := by
      cases more with
      | false => exact .left_out
      | true => exact .written isGap_nil
    obtain ⟨dark, hentry⟩ := exists_isEntry_taken hlayout he htaken hcomma
    have hfourth : ∀ t ∈ fourth, ∀ c ∈ t, isLineEnd c = false := fun t ht =>
      hcomments (layout.indent ++ '\x7d' :: (if more then [','] else [])) t
        (by simp [entryLines, Option.mem_def.1 ht])
    refine ⟨dark, fun after => ?_⟩
    have hbody : IsBody IsEntry after _ _ := isBody_gap_append hindent
      (.item hentry (isBody_trailing hfourth layout.newline))
    simpa using hbody
  · refine .inr ⟨mt hplaced.1 h, fun after => ?_⟩
    have hnone := expressions?_of_refused hlayout he.light he.dark
      (exists_refused hlayout hharmless h) (if more then [','] else [])
      (trailing fourth ++ layout.newline.text ++ after)
    have hcolon : ∀ c ∈ (notedExpressions layout e first second third
        (if more then [','] else []) ++ (trailing fourth ++ layout.newline.text ++ after)).head?,
        isNameChar c = false := by
      rintro _ ⟨⟩
      decide
    simpa using head?_readAll_of_none he hindent hcolon hnone

theorem no_comma_annotated (hlayout : Layout.IsUsable layout.indent)
    {l : List (Category × Entry)} {ls : List (Text × Option Text)}
    (hls : ls.map (·.1) = listingLines layout l) (rest : Text) :
    char? ',' (skipGap (annotated layout.newline ls ++ '\x7d' :: rest)) = none := by
  cases l with
  | nil =>
    obtain rfl := List.map_eq_nil_iff.1 hls
    rfl
  | cons x l =>
    obtain ⟨lines, behind, rfl, hlines, -⟩ := List.map_eq_append_iff.1 hls
    obtain ⟨first, second, third, fourth, rfl⟩ := exists_entryLines hlines
    rw [annotated_append, annotated_entryLines, List.append_assoc, List.append_assoc,
      skipGap_append hlayout.isGap]
    rfl

/-- Either all comments of a listing are where they may stand, and it is read with the names and the
first expressions of its entries, or reading ends in front of an entry. -/
theorem read_annotated_listing (hlayout : Layout.IsUsable layout.indent)
    {l : List (Category × Entry)} (hl : ∀ c e, (c, e) ∈ l → e.IsPrintable)
    {ls : List (Text × Option Text)} (hls : ls.map (·.1) = listingLines layout l)
    (hcomments : AreComments ls) (hharmless : AreHarmless ls) (rest : Text) :
    (ArePlaced ls ∧ ∃ es, es.map (fun e => (e.name, e.light)) =
        l.map (fun x => (x.2.name, x.2.light)) ∧
        IsBody IsEntry ('\x7d' :: rest) (annotated layout.newline ls) es) ∨
      (¬ArePlaced ls ∧ (entries.readAll (annotated layout.newline ls ++ '\x7d' :: rest)).2.head? =
        some doubleQuote) := by
  induction l generalizing ls with
  | nil =>
    obtain rfl := List.map_eq_nil_iff.1 hls
    exact .inl ⟨(fun _ _ h => nomatch h), [], rfl, .nil⟩
  | cons x l ih =>
    obtain ⟨c, e⟩ := x
    -- the lines of the first entry, those up to the next one, and all others
    obtain ⟨lines, behind, rfl, hlines, hbehind⟩ := List.map_eq_append_iff.1 hls
    obtain ⟨more, ms, rfl, hmore, hms⟩ := List.map_eq_append_iff.1 hbehind
    have hnote : ∀ m ∈ more.map (·.1), Series.IsNote layout.indent m := fun m hm =>
      isNote_of_mem_notes (hmore ▸ hm)
    have hnotes : ArePlaced more := arePlaced_of_notes hlayout hnote
    have hbetween {after : Text} : IsBody IsEntry after (annotated layout.newline more) [] :=
      isBody_annotated_notes hlayout.isGap hnote fun m n h => hcomments m n (by simp [h])
    have hentry := read_annotated_entry hlayout (hl c e List.mem_cons_self) hlines
      (fun m n h => hcomments m n (by simp [h])) fun m n h => hharmless m n (by simp [h])
    have hrest := ih (fun d f h => hl d f (.tail _ h)) hms
      (fun m n h => hcomments m n (by simp [h])) fun m n h => hharmless m n (by simp [h])
    rw [annotated_append, annotated_append, arePlaced_append, arePlaced_append]
    rcases hentry with ⟨hlines, dark, hfirst⟩ | ⟨hlines, hfirst⟩
    · rcases hrest with ⟨hms', es, hes, hbody⟩ | ⟨hms', hhead⟩
      · refine .inl ⟨⟨hlines, hnotes, hms'⟩, ⟨e.name, e.light, dark⟩ :: es, ?_,
          (hfirst _).append (hbetween.append hbody)⟩
        rw [List.map_cons, List.map_cons, hes]
      · refine .inr ⟨fun h => hms' h.2.2, ?_⟩
        have hread := ((hfirst _).append hbetween).readAll_append entries_reads
          (no_comma_annotated hlayout hms rest)
        rw [← List.append_assoc, List.append_assoc, hread]
        exact hhead
    · refine .inr ⟨fun h => hlines h.1, ?_⟩
      rw [List.append_assoc]
      exact hfirst _

def twoTokens : Table :=
  ⟨[.ofIcon .token "BTC".toList .builtin, .ofIcon .token "ETH".toList .builtin], [], []⟩

theorem holdsIcons_twoTokens : twoTokens.HoldsIcons := by
  intro c e he
  cases c with
  | token =>
    rcases List.mem_cons.1 he with rfl | he
    · exact ⟨_, _, ⟨by decide, forall_of_all (by decide)⟩, rfl⟩
    · obtain rfl := List.mem_singleton.1 he
      exact ⟨_, _, ⟨by decide, forall_of_all (by decide)⟩, rfl⟩
  | wallet => exact nomatch he
  | system => exact nomatch he

theorem areComments_zip {ls : List Text} {notes : List (Option Text)}
    (h : notes.all (fun note => note.all (·.all (!isLineEnd ·))) = true) :
    AreComments (ls.zip notes) := by
  intro l note hmem c hc
  have hnote := List.all_eq_true.1 h _ (List.of_mem_zip hmem).2
  simpa using List.all_eq_true.1 hnote c hc

theorem exists_ofEntries {t : Table} (ht : t.IsPrintable) {es : List Entry}
    (hes : es.map (fun e => (e.name, e.light)) =
      t.listing.map fun x => (x.2.name, x.2.light)) :
    ∃ s, ofEntries es = .ok s ∧ ∀ c, (s.group c).map (fun e => (e.name, e.light)) =
      (t.group c).map fun e => (e.name, e.light) := by
  have hcalled : ∀ e ∈ es, ∃ c : Category, c.IsCalledIn e.light := by
    intro e he
    have hmem := List.mem_map_of_mem (f := fun e => (e.name, e.light)) he
    rw [hes] at hmem
    obtain ⟨⟨c, o⟩, ho, heq⟩ := List.mem_map.1 hmem
    exact ⟨c, (Prod.mk.inj heq).2 ▸ (ht c o (mem_listing.1 ho)).2⟩
  have htable : t = grouped (t.listing.map (·.2)) :=
    (ofEntries_eq_ok_iff.1 (ofEntries_listing fun c e he => (ht c e he).2)).2
  have hfilter (c : Category) (gs : List Entry) :
      (gs.filter (c.calls ·.light)).map (fun e => (e.name, e.light)) =
        (gs.map fun e => (e.name, e.light)).filter (c.calls ·.2) := by
    rw [List.filter_map]
    rfl
  refine ⟨grouped es, ofEntries_eq_ok_iff.2 ⟨hcalled, rfl⟩, fun c => ?_⟩
  have hgroup := congrArg (Table.group · c) htable
  rw [hgroup, group_grouped, group_grouped, hfilter, hfilter, hes, List.map_map]
  rfl

end Table

namespace TableFile
open Table

/-- With comments behind its lines, a printed table is read if they are where they may stand, with
the names and the first expressions of its entries in every group. -/
theorem read_annotated {head rest : Text} {t : Table} {layout : Layout} {header : Span}
    {ls : List (Text × Option Text)}
    (hheader : occurrences Table.header (head ++ t.renderBody layout ++ '\x7d' :: rest) = [header])
    (hstop : header.stop = head.length) (hlayout : Layout.IsUsable layout.indent)
    (ht : t.HoldsIcons) (hls : ls.map (·.1) = (lines (t.renderBody layout)).tail)
    (hcomments : AreComments ls) (hharmless : AreHarmless ls) :
    let source := head ++ (layout.newline.text ++ annotated layout.newline ls) ++ '\x7d' :: rest
    ((∃ f, read source = .ok f) ↔ ArePlaced ls) ∧
      ∀ f, read source = .ok f → ∀ c, (f.table.group c).map (fun e => (e.name, e.light)) =
        (t.group c).map fun e => (e.name, e.light) := by
  rw [lines_renderBody hlayout ht, List.tail_cons] at hls
  have hone := occurrences_annotated hheader hstop hlayout ht hls hcomments
  have hprintable := ht.isPrintable
  obtain ⟨more, ms, rfl, hmore, hms⟩ := List.map_eq_append_iff.1 hls
  have hnote : ∀ m ∈ more.map (·.1), Series.IsNote layout.indent m := fun m hm =>
    isNote_of_mem_notes (hmore ▸ hm)
  have hfront {after : Text} :
      IsBody IsEntry after (layout.newline.text ++ annotated layout.newline more) [] :=
    (Series.isBody_newline layout.newline).append
      (isBody_annotated_notes hlayout.isGap hnote fun m n h => hcomments m n (by simp [h]))
  have hlisting := read_annotated_listing hlayout
    (fun c e h => (hprintable c e (mem_listing.1 h)).1) hms
    (fun m n h => hcomments m n (by simp [h])) (fun m n h => hharmless m n (by simp [h])) rest
  intro source
  have hsource : source.drop header.stop = layout.newline.text ++ annotated layout.newline more ++
      annotated layout.newline ms ++ '\x7d' :: rest := by
    have hbehind : source = head ++ (layout.newline.text ++ annotated layout.newline (more ++ ms) ++
        '\x7d' :: rest) := List.append_assoc ..
    rw [hstop, hbehind, List.drop_left, annotated_append]
    simp only [List.append_assoc]
  rw [arePlaced_append, and_iff_right (arePlaced_of_notes hlayout hnote)]
  rcases hlisting with ⟨hplaced, es, hes, hbody⟩ | ⟨hplaced, hhead⟩
  · obtain ⟨s, hs, hgroups⟩ := exists_ofEntries hprintable hes
    have hread := read_of_body hone hsource (hfront.append hbody)
    rw [List.nil_append, hs] at hread
    refine ⟨⟨fun _ => hplaced, fun _ => ⟨_, hread⟩⟩, fun f hf => ?_⟩
    rw [hread] at hf
    obtain rfl := Except.ok.inj hf
    exact hgroups
  · have hfail : ∀ f, read source ≠ .ok f := fun f hf => by
      obtain ⟨header', b, rest', es, hone', hsource', hbody, -⟩ := exists_body_of_read hf
      obtain rfl : header = header' := by simpa using hone.symm.trans hone'
      have hstop := hbody.readAll entries_reads (entries_reads.stopsAt_brace rest')
      have hread := hfront.readAll_append entries_reads (no_comma_annotated hlayout hms rest)
      rw [← hsource', hsource, List.append_assoc, hread] at hstop
      rw [(Prod.mk.inj hstop).2] at hhead
      exact nomatch hhead
    exact ⟨⟨fun ⟨f, hf⟩ => absurd hf (hfail f), fun h => absurd h hplaced⟩,
      fun f hf => absurd hf (hfail f)⟩

/-- Comments with a closed literal, with the heading of a table and with a brace. -/
theorem read_annotated_closed_literal :
    let t := Table.twoTokens
    let layout := Layout.standard
    let head := "export const iconMap = \x7b".toList
    let ls := (bodyLines layout t).zip
      [some "export const iconMap = \x7b".toList, none, none, some "see \x22art, v2\x22".toList,
        some "\x7d".toList, none, none, none, none, none, none, none]
    let source := head ++ (layout.newline.text ++ annotated layout.newline ls) ++
      '\x7d' :: ";\n".toList
    occurrences Table.header (head ++ t.renderBody layout ++ '\x7d' :: ";\n".toList) =
      [⟨0, 24⟩] ∧
    Layout.IsUsable layout.indent ∧ t.HoldsIcons ∧
    ls.map (·.1) = (lines (t.renderBody layout)).tail ∧ AreComments ls ∧ AreHarmless ls ∧
    ((∃ f, read source = .ok f) ↔ ArePlaced ls) ∧
      ∀ f, read source = .ok f → ∀ c, (f.table.group c).map (fun e => (e.name, e.light)) =
        (t.group c).map fun e => (e.name, e.light) := by
  intro t layout head ls source
  have hheader : occurrences Table.header (head ++ t.renderBody layout ++ '\x7d' :: ";\n".toList) =
      [⟨0, 24⟩] := by decide +kernel
  have hls : ls.map (·.1) = (lines (t.renderBody layout)).tail := by
    rw [lines_renderBody Layout.isUsable_standard holdsIcons_twoTokens, List.tail_cons]
    exact List.map_fst_zip (by decide +kernel)
  have hcomments : AreComments ls := areComments_zip (by decide +kernel)
  have hharmless : AreHarmless ls := by
    intro l note hmem hdark
    have hpasses : cutAt? endsExpression .outside 0 ("see \x22art, v2\x22".toList ++ [',']) =
        some ("see \x22art, v2\x22".toList, [',']) := by decide +kernel
    have honly :
        ls.filterMap (fun x => if startsWith (trimStart x.1) darkLabel then x.2 else none) =
          ["see \x22art, v2\x22".toList] := by decide +kernel
    have hnote : note ∈ ["see \x22art, v2\x22".toList] := by
      rw [← honly]
      exact List.mem_filterMap.2 ⟨_, hmem, by simp [hdark]⟩
    rw [List.mem_singleton.1 hnote]
    exact .inl (.inl (passes_of_cutAt? hpasses).1)
  exact ⟨hheader, Layout.isUsable_standard, holdsIcons_twoTokens, hls, hcomments, hharmless,
    read_annotated hheader (by decide) Layout.isUsable_standard holdsIcons_twoTokens hls hcomments
      hharmless⟩

/-- Apostrophes in two comments make a literal of all that is between them, an entry with it. -/
theorem read_annotated_swallows :
    let t := Table.twoTokens
    let layout := Layout.standard
    let note := some "don't retouch".toList
    let ls := (bodyLines layout t).zip
      [none, none, none, note, none, none, none, note, none, none, none, none]
    let source := "export const iconMap = \x7b".toList ++
      (layout.newline.text ++ annotated layout.newline ls) ++ '\x7d' :: ";\n".toList
    t.HoldsIcons ∧ ls.map (·.1) = (lines (t.renderBody layout)).tail ∧ AreComments ls ∧
    ∃ f, read source = .ok f ∧ (f.table.group .token).map (·.name) = ["BTC".toList] ∧
      (t.group .token).map (·.name) = ["BTC".toList, "ETH".toList] := by
  intro t layout note ls source
  have hls : ls.map (·.1) = (lines (t.renderBody layout)).tail := by
    rw [lines_renderBody Layout.isUsable_standard holdsIcons_twoTokens, List.tail_cons]
    exact List.map_fst_zip (by decide +kernel)
  have hnames : (read source).toOption.map (fun f => (f.table.group .token).map (·.name)) =
      some ["BTC".toList] := by decide +kernel
  refine ⟨holdsIcons_twoTokens, hls, areComments_zip (by decide +kernel), ?_⟩
  cases hread : read source with
  | error fault =>
    rw [hread] at hnames
    exact nomatch hnames
  | ok f =>
    rw [hread] at hnames
    exact ⟨f, rfl, Option.some.inj hnames, by decide⟩

end TableFile
end IconCatalog
