import IconCatalog.Proofs.RemotePattern.Array
import IconCatalog.Proofs.RemotePattern.Patch
import IconCatalog.Proofs.Source.Occurrence
/-!
What appending a pattern leaves of an array. The bracket that closes the array is found by counting
brackets wherever they stand, and the comma behind the last element is put where the array seems to
end. The elements are kept, with the pattern as the last one, if and only if the count ends at the
bracket that closes the array and the comma does not go into a comment.
-/
namespace IconCatalog

namespace RemotePattern
open Text Source
variable {t host : Text} {legacy : List Text}

theorem exists_of_property {name : String} {bracket : Char} {t r : Text}
    (h : property name bracket t = some r) : ∃ m, t = m ++ bracket :: r := by
  rw [property] at h
  obtain ⟨u₁, h₁, h⟩ := Pattern.sequence_cons_eq_some_iff.1 h
  obtain ⟨u₂, h₂, h⟩ := Pattern.sequence_cons_eq_some_iff.1 h
  obtain ⟨u₃, h₃, h⟩ := Pattern.sequence_cons_eq_some_iff.1 h
  obtain ⟨u₄, h₄, h⟩ := Pattern.sequence_cons_eq_some_iff.1 h
  obtain ⟨u₅, h₅, h⟩ := Pattern.sequence_cons_eq_some_iff.1 h
  obtain rfl : u₅ = r := Option.some.inj h
  obtain ⟨v, -, hv⟩ := exists_gap u₁
  obtain ⟨w, -, hw⟩ := exists_gap u₃
  obtain rfl : skipGap u₁ = u₂ := Option.some.inj h₂
  obtain rfl : skipGap u₃ = u₄ := Option.some.inj h₄
  refine ⟨name.toList ++ v ++ [':'] ++ w, ?_⟩
  rw [after?_eq_some_iff.1 h₁, hv, char?_eq_some_iff.1 h₃, hw, char?_eq_some_iff.1 h₅]
  simp

theorem exists_take_of_firstOccurrence? {name : String} {bracket : Char} {found : Span}
    (h : firstOccurrence? (property name bracket) t = some found) :
    ∃ u, t.take found.stop = u ++ [bracket] := by
  obtain ⟨u, v, r, rfl, hv, hs, hm, hu, -⟩ := exists_of_firstOccurrence? h
  rw [firstOccurrence?_of_match hu hv hs hm] at h
  obtain rfl := Option.some.inj h
  obtain ⟨m, rfl⟩ := exists_of_property hm
  refine ⟨u ++ m, ?_⟩
  have hlen :
      u.length + ((m ++ bracket :: r).length - r.length) = (u ++ (m ++ [bracket])).length := by
    simp only [List.length_append, List.length_cons, List.length_nil]
    omega
  have ht : u ++ (m ++ bracket :: r) = u ++ (m ++ [bracket]) ++ r := by simp
  rw [hlen, ht, List.take_left, List.append_assoc]

/-- The comma that parts the new element from the last one, as it is decided. -/
def comma (inside : Text) : Text :=
  if trim inside = [] || (trim inside).getLast? = some ',' then [] else [',']

/-- The inside of an array with the pattern behind it. -/
def appended (host indent inside : Text) : Text :=
  trimEnd inside ++ (comma inside ++ '\n' :: (entry host ++ ',' :: '\n' :: indent))

theorem exists_of_append? (host : Text) {start : Nat} {u : Text}
    (hopen : t.take start = u ++ ['['])
    {inside rest : Text} (hcut : cutAtClosing? 1 (t.drop start) = some (inside, rest)) :
    ∃ indent, (∀ c ∈ indent, isBlank c = true) ∧
      append? t start host = some (t.take start ++ appended host indent inside ++ rest) := by
  let indent := lastLine (t.take start ++ inside)
  refine ⟨if isAllBlank indent then indent else [], ?_, ?_⟩
  · split
    · next h => exact List.all_eq_true.1 h
    · simp
  · have hend : trimEnd (t.take start ++ inside) = t.take start ++ trimEnd inside :=
      trimEnd_append (by rw [hopen, List.getLast?_concat]) (by decide) inside
    rw [append?, hcut, Option.map_some]
    simp only [hend, appended, comma, List.append_assoc, List.cons_append]
    rfl

def IsQuotable (host : Text) : Prop := ∀ c ∈ host, c ≠ '\\' ∧ c ≠ singleQuote

namespace Reader
variable {s s' : Reader}

instance (c : Char) : Decidable (IsPlain c) :=
  decidable_of_iff (c ≠ '/' ∧ c ≠ ',' ∧ opensBracket c = false ∧ closesBracket c = false ∧
    Literal.isQuote c = false) ⟨fun ⟨a, b, d, e, f⟩ => ⟨a, b, d, e, f⟩,
    fun ⟨a, b, d, e, f⟩ => ⟨a, b, d, e, f⟩⟩

def entryHead : Text := "      \x7b protocol: 'https', hostname: '".toList

theorem entry_eq (host : Text) : entry host = entryHead ++ host ++ "' \x7d".toList := rfl

theorem foldl_entryHead : entryHead.foldl Literal.step .outside = .inside singleQuote := by decide

theorem run_entry (hhost : IsQuotable host) (hs : s.place = .within .outside) :
    s.run (entry host) = some (s.grow (entry host)) := by
  have hplain {x : Text} (hx : ∀ c ∈ x, IsPlain c) : Stays x := fun s hs _ => run_plain hx hs
  have hquoted {x : Text} (hx : IsQuotable x) : Stays (singleQuote :: (x ++ [singleQuote])) :=
    fun s hs _ => run_quoted (by decide) hx hs
  have hprotocol : Stays " protocol: ".toList := hplain (forall_of_all (by decide))
  have hhttps : Stays "'https'".toList := hquoted (x := "https".toList) (forall_of_all (by decide))
  have hhostname : Stays " hostname: ".toList := hplain (forall_of_all (by decide))
  have hspace : Stays [' '] := hplain (forall_of_all (by decide))
  have hinner := ((((hprotocol.append hhttps).append stays_comma).append hhostname).append
    (hquoted hhost)).append hspace
  have hindent : s.run "      ".toList = some (s.grow "      ".toList) :=
    run_plain (forall_of_all (by decide)) hs
  have hbraced := run_braced (s := s.grow "      ".toList) hinner rfl
  have hhead : entryHead = "      ".toList ++ '\x7b' :: (" protocol: ".toList ++
      ("'https'".toList ++ ([','] ++ (" hostname: ".toList ++ [singleQuote])))) := by decide +kernel
  have htail : "' \x7d".toList = [singleQuote, ' ', '\x7d'] := by decide
  have heq : entry host = "      ".toList ++ ('\x7b' :: (" protocol: ".toList ++ "'https'".toList ++
      [','] ++ " hostname: ".toList ++ (singleQuote :: (host ++ [singleQuote])) ++ [' '] ++
      ['\x7d'])) := by
    rw [entry_eq, hhead, htail]
    simp only [List.append_assoc, List.cons_append, List.nil_append]
  rw [heq, run_append_of_run hindent, hbraced, grow_grow]

theorem step_feed (hs : s.literal = .outside) : s.step '\n' = some (s.settle.grow ['\n']) := by
  by_cases hplace : s.place = .comment
  · rw [step, hplace, settle, hplace]
    rfl
  · rw [← step_settle (by decide), step, settle_place hs hplace]
    rfl

theorem run_line (hhost : IsQuotable host) {indent : Text}
    (hindent : ∀ c ∈ indent, isBlank c = true) (hs : s.literal = .outside) (hdepth : s.depth = 0) :
    s.run ('\n' :: (entry host ++ ',' :: '\n' :: indent)) =
      some ⟨.within .outside, 0, s.ended ++ [s.settle.piece ++ '\n' :: entry host],
        '\n' :: indent⟩ := by
  have hentry := run_entry (s := s.settle.grow ['\n']) hhost rfl
  have hcomma : ((s.settle.grow ['\n']).grow (entry host)).step ',' = some
      ⟨.within .outside, 0, s.ended ++ [s.settle.piece ++ '\n' :: entry host], []⟩ := by
    simp [step, grow, code, settle_depth, settle_ended, hdepth]
  have hplain : ∀ c ∈ '\n' :: indent, IsPlain c :=
    List.forall_mem_cons.2 ⟨by decide, fun c hc => isPlain_of_isBlank (hindent c hc)⟩
  rw [run_cons, step_feed hs, Option.bind_some, run_append_of_run hentry,
    run_cons, hcomma, Option.bind_some, run_plain hplain rfl]
  rfl

end Reader

/-- A comment and no comma follows the last element, so that a comma goes into the comment. -/
def HidesComma (content : Text) : Prop :=
  ∃ s, Reader.start.run (trimEnd content) = some s ∧ s.place = .comment ∧ isAllBlank s.piece = false

instance (content : Text) : Decidable (HidesComma content) :=
  decidable_of_iff (((Reader.start.run (trimEnd content)).any fun s =>
    decide (s.place = .comment) && !isAllBlank s.piece) = true) <| by
    cases h : Reader.start.run (trimEnd content) <;> simp [HidesComma, h]

theorem exists_reader {content : Text} {es : List Text} (h : elements? content = some es) :
    ∃ s, Reader.start.run (trimEnd content) = some s ∧ s.depth = 0 ∧ s.literal = .outside ∧
      es = (s.ended ++ if isAllBlank s.settle.piece then [] else [s.settle.piece]).map trim := by
  obtain ⟨s', hrun, hclose⟩ := Reader.elements?_eq_some_iff.1 h
  obtain ⟨hplace, hdepth, hes⟩ := Reader.close_eq_some_iff.1 hclose
  obtain ⟨w, hw, hcontent⟩ := exists_trimEnd content
  rw [hcontent, Reader.run_append_eq_some_iff] at hrun
  obtain ⟨s, hs, hrest⟩ := hrun
  have hblanked := Reader.blanked_of_run hw hrest
  obtain ⟨v, hv, hpiece⟩ := hblanked.piece
  refine ⟨s, hs, hblanked.depth ▸ hdepth, ?_, ?_⟩
  · exact Decidable.byContradiction fun hliteral => hblanked.literal
      (Reader.isProper_of_run hs trivial) hliteral (Reader.literal_of_settle hplace)
  · rw [hes, hblanked.ended, hpiece, isAllBlank_append hv]
    split
    · rfl
    · rw [List.map_append, List.map_append, List.map_singleton, List.map_singleton,
        trim_append_blank hv]

theorem Reader.piece_of_code {r s' : Reader} {c : Char} (h : r.code c = some s')
    (hc : isBlank c = false) (hdepth : s'.depth = 0) :
    if c = ',' then s'.settle.piece = [] else isAllBlank s'.settle.piece = false := by
  have hfilled : isAllBlank (r.piece ++ [c]) = false := filled_append hc []
  rcases code_cases h with ⟨rfl, rfl⟩ | ⟨rfl, -, rfl⟩ | ⟨hopen, rfl⟩ | ⟨hclose, -, rfl⟩ |
    ⟨hcomma, rfl⟩
  · exact hfilled
  · rfl
  · rw [if_neg (by rintro rfl; exact absurd hopen (by decide))]
    exact hfilled
  · rw [if_neg (by rintro rfl; exact absurd hclose (by decide))]
    exact hfilled
  · rw [if_neg fun hc => absurd hdepth (Nat.ne_of_gt (hcomma hc))]
    exact hfilled

theorem Reader.piece_of_step {s s' : Reader} {c : Char} (h : s.step c = some s')
    (hc : isBlank c = false) (hdepth : s'.depth = 0) (hcode : s'.literal = .outside)
    (hproper : s.literal.IsProper) (hcomment : s'.place ≠ .comment) :
    if c = ',' then s'.settle.piece = [] else isAllBlank s'.settle.piece = false := by
  unfold step at h
  split at h
  · exact piece_of_code h hc hdepth
  · next l hne hplace =>
    obtain rfl := Option.some.inj h
    rw [literal, hplace] at hproper
    have hcloses : l.step c = .outside := hcode
    rw [if_neg]
    · exact filled_append hc []
    · rintro rfl
      cases l with
      | outside => exact hne rfl
      | escaped q => simp [Literal.step] at hcloses
      | inside q =>
        have hq : ',' ≠ q := by
          rintro rfl
          exact absurd hproper (by simp [Literal.IsProper]; decide)
        simp [Literal.step, hq] at hcloses
  · split at h
    · obtain rfl := Option.some.inj h
      exact absurd rfl hcomment
    · exact piece_of_code h hc hdepth
  · next hplace =>
    split at h
    · next hfeed => exact absurd hc (by rw [hfeed]; decide)
    · obtain rfl := Option.some.inj h
      exact absurd hplace hcomment

theorem piece_of_comma {content : Text} {s : Reader}
    (hrun : Reader.start.run (trimEnd content) = some s) (hdepth : s.depth = 0)
    (hcode : s.literal = .outside) (hcomment : s.place ≠ .comment) :
    (comma content = [] ∧ s.settle.piece = []) ∨
      (comma content = [','] ∧ isAllBlank s.settle.piece = false) := by
  rcases List.eq_nil_or_concat (trimEnd content) with hend | ⟨a, c, hend⟩
  · rw [hend] at hrun
    obtain rfl := Option.some.inj hrun
    exact .inl ⟨by simp [comma, trim_eq_nil_iff.2 hend], rfl⟩
  · rw [List.concat_eq_append] at hend
    have hgetLast : (trim content).getLast? = some c := by
      rw [getLast?_trim, hend, List.getLast?_concat]
    have hne : trim content ≠ [] := fun h => by
      rw [h] at hgetLast
      cases hgetLast
    have hblank : isBlank c = false := getLast_trimEnd content c (by rw [hend]; simp)
    rw [hend, Reader.run_append_eq_some_iff] at hrun
    obtain ⟨s₀, hs₀, hlaststep⟩ := hrun
    have hstep : s₀.step c = some s := by simpa [Reader.run_cons] using hlaststep
    have hpiece := Reader.piece_of_step hstep hblank hdepth hcode
      (Reader.isProper_of_run hs₀ trivial) hcomment
    split at hpiece
    · next hc => exact .inl ⟨by simp [comma, hgetLast, hc], hpiece⟩
    · next hc => exact .inr ⟨by simp [comma, hgetLast, hc, hne], hpiece⟩

theorem comma_cases (content : Text) : comma content = [] ∨ comma content = [','] := by
  unfold comma
  split
  · exact .inl rfl
  · exact .inr rfl

theorem Reader.run_comma_of_comment {s : Reader} (h : s.place = .comment) (content : Text) :
    s.run (comma content) = some s := by
  rcases comma_cases content with hcomma | hcomma
  · rw [hcomma]
    rfl
  · rw [hcomma, run_cons, step, h]
    rfl

theorem elements?_of_comma (hhost : IsQuotable host) {indent content : Text}
    (hindent : ∀ c ∈ indent, isBlank c = true) {s s' : Reader}
    (hrun : Reader.start.run (trimEnd content) = some s) (hcomma : s.run (comma content) = some s')
    (hcode : s'.literal = .outside) (hdepth : s'.depth = 0) :
    elements? (appended host indent content) =
      some ((s'.ended ++ [s'.settle.piece ++ '\n' :: entry host]).map trim) := by
  have hblank : isAllBlank ('\n' :: indent) = true :=
    List.all_eq_true.2 (List.forall_mem_cons.2 ⟨by decide, hindent⟩)
  have hline : Reader.start.run (appended host indent content) = some ⟨.within .outside, 0,
      s'.ended ++ [s'.settle.piece ++ '\n' :: entry host], '\n' :: indent⟩ := by
    rw [appended, Reader.run_append_of_run hrun, Reader.run_append_of_run hcomma]
    exact Reader.run_line hhost hindent hcode hdepth
  rw [elements?, hline, Option.bind_some, Reader.close_eq_some_iff]
  refine ⟨rfl, rfl, ?_⟩
  simp [Reader.settle, hblank]

theorem trim_entry (host : Text) {p : Text} (hp : isAllBlank p = true) :
    trim (p ++ '\n' :: entry host) = trim (entry host) := by
  have hblank : ∀ c ∈ p ++ ['\n'], isBlank c = true :=
    List.forall_mem_append.2 ⟨List.all_eq_true.1 hp, by simp; decide⟩
  rw [List.append_cons, trim_blank_append hblank]

/-- Appending to an array that ends where it was taken to end keeps its elements, unless the comma
goes into a comment. -/
theorem elements?_appended_iff (hhost : IsQuotable host) {indent content : Text}
    (hindent : ∀ c ∈ indent, isBlank c = true) {es : List Text} (h : elements? content = some es) :
    elements? (appended host indent content) = some (es ++ [trim (entry host)]) ↔
      ¬HidesComma content := by
  obtain ⟨s, hrun, hdepth, hcode, hes⟩ := exists_reader h
  have hhides : HidesComma content ↔ s.place = .comment ∧ isAllBlank s.piece = false := by
    refine ⟨fun ⟨s', hrun', hs'⟩ => ?_, fun hs => ⟨s, hrun, hs⟩⟩
    obtain rfl := Option.some.inj (hrun.symm.trans hrun')
    exact hs'
  by_cases hplace : s.place = .comment
  · have hsettle : s.settle = s := by rw [Reader.settle, hplace]
    rw [elements?_of_comma hhost hindent hrun (Reader.run_comma_of_comment hplace content) hcode
      hdepth, hes, hhides, hsettle,
      Option.some.injEq]
    cases hblank : isAllBlank s.piece with
    | true =>
      refine iff_of_true ?_ (fun hfilled => Bool.false_ne_true hfilled.2.symm)
      simp [trim_entry host hblank]
    | false =>
      refine iff_of_false (fun heq => ?_) (not_not_intro ⟨hplace, rfl⟩)
      have hlen := congrArg List.length heq
      simp at hlen
  · refine iff_of_true ?_ (fun hhidden => hplace (hhides.1 hhidden).1)
    rcases piece_of_comma hrun hdepth hcode hplace with ⟨hcomma, hpiece⟩ | ⟨hcomma, hfilled⟩
    · have hstay : s.run (comma content) = some s := by rw [hcomma]; rfl
      rw [elements?_of_comma hhost hindent hrun hstay hcode hdepth, hes, hpiece]
      simp [isAllBlank, ← trim_entry host (p := []) rfl]
    · have hends : s.run (comma content) =
          some ⟨.within .outside, 0, s.ended ++ [s.settle.piece], []⟩ := by
        rw [hcomma, Reader.run_cons, ← Reader.step_settle (by decide), Reader.step,
          Reader.settle_place hcode hplace]
        simp [Reader.code, Reader.settle_depth, Reader.settle_ended, hdepth]
      rw [elements?_of_comma hhost hindent hrun hends rfl rfl, hes, hfilled]
      simp [Reader.settle, ← trim_entry host (p := []) rfl]

theorem elements?_ne_of_past {content content' y r u indent : Text} {es : List Text}
    (h : elements? content = some es)
    (heq : appended host indent (content ++ ']' :: y) ++ r = content' ++ ']' :: u) {e : Text} :
    elements? content' ≠ some (es ++ [e]) := by
  intro hnew
  have htrim : trimEnd (content ++ ']' :: y) = content ++ ']' :: trimEnd y := by
    rw [List.append_cons, trimEnd_append (c := ']') (by simp) (by decide), ← List.append_cons]
  rw [appended, htrim, List.append_assoc, List.append_assoc, List.cons_append] at heq
  obtain rfl := eq_of_elements? h hnew heq
  have hlen := congrArg List.length (Option.some.inj (h.symm.trans hnew))
  simp at hlen

namespace Reader
variable {s s' : Reader} {c : Char}

theorem adds_of_code {r : Reader} (h : r.code c = some s') (hslash : c ≠ '/')
    (hcomma : c = ',' → 0 < r.depth) : s'.ended = r.ended ∧ s'.piece = r.piece ++ [c] ∧
      s'.settle = s' ∧ s'.place ≠ .comment := by
  rcases code_cases h with ⟨hc, -⟩ | ⟨hc, hdepth, -⟩ | ⟨-, rfl⟩ | ⟨-, -, rfl⟩ | ⟨-, rfl⟩
  · exact absurd hc hslash
  · exact absurd hdepth (Nat.ne_of_gt (hcomma hc))
  · exact ⟨rfl, rfl, rfl, Place.within_ne_comment _⟩
  · exact ⟨rfl, rfl, rfl, Place.within_ne_comment _⟩
  · exact ⟨rfl, rfl, rfl, Place.within_ne_comment _⟩

theorem adds_of_step (h : s.step c = some s') (hplace : s.place ≠ .comment) (hslash : c ≠ '/')
    (hcomma : c = ',' → s.literal = .outside → 0 < s.depth) :
    s'.ended = s.ended ∧ s'.piece = s.settle.piece ++ [c] ∧ s'.settle = s' ∧
      s'.place ≠ .comment := by
  unfold step at h
  split at h
  · next hcode =>
    have hsettle : s.settle = s := by rw [settle, hcode]
    rw [hsettle]
    exact adds_of_code h hslash fun hc => hcomma hc (by rw [literal, hcode])
  · next l _ hl =>
    obtain rfl := Option.some.inj h
    have hsettle : s.settle = s := by rw [settle, hl]
    exact ⟨rfl, by rw [hsettle]; rfl, rfl, Place.within_ne_comment _⟩
  · next hcode =>
    rw [if_neg hslash] at h
    rw [← s.settle_ended]
    refine adds_of_code h hslash fun hc => ?_
    rw [settle_depth]
    exact hcomma hc (by rw [literal, hcode])
  · next hcomment => exact absurd hcomment hplace

theorem adds_of_run {x : Text} (hx : ∀ c ∈ x, c ≠ '/' ∧ c ≠ ',') (h : s.run x = some s')
    (hplace : s.place ≠ .comment) (hsettle : s.settle = s) :
    s'.ended = s.ended ∧ s'.piece = s.piece ++ x := by
  induction x generalizing s with
  | nil =>
    obtain rfl := Option.some.inj h
    exact ⟨rfl, (List.append_nil _).symm⟩
  | cons c x ih =>
    obtain ⟨s₁, hstep, hrun⟩ := run_cons_eq_some_iff.1 h
    obtain ⟨hslash, hcomma⟩ := hx c List.mem_cons_self
    obtain ⟨hended, hpiece, hsettle₁, hplace₁⟩ :=
      adds_of_step hstep hplace hslash fun hc => absurd hc hcomma
    obtain ⟨hended', hpiece'⟩ := ih (fun d hd => hx d (.tail c hd)) hrun hplace₁ hsettle₁
    rw [hsettle] at hpiece
    exact ⟨hended'.trans hended, by rw [hpiece', hpiece, List.append_assoc]; rfl⟩

theorem exists_brace {z : Text} (h : s.run ('\n' :: (entry host ++ z)) = some s') :
    ∃ x, s'.pieces[s.ended.length]? =
      some (s.settle.piece ++ ("\n      ".toList ++ '\x7b' :: x)) := by
  obtain ⟨s₁, hstep, hrest⟩ := run_cons_eq_some_iff.1 h
  have hfeed : s₁.ended = s.ended ∧ s₁.piece = s.settle.piece ++ ['\n'] ∧ s₁.settle = s₁ ∧
      s₁.place ≠ .comment := by
    by_cases hplace : s.place = .comment
    · rw [step, hplace] at hstep
      obtain rfl := Option.some.inj hstep
      exact ⟨rfl, by rw [settle, hplace]; rfl, rfl, Place.within_ne_comment _⟩
    · exact adds_of_step hstep hplace (by decide) fun hc => absurd hc (by decide)
  obtain ⟨hended, hpiece, hsettle, hplace⟩ := hfeed
  obtain ⟨tail, htail⟩ : ∃ tail, entry host = "      \x7b".toList ++ tail := ⟨_, rfl⟩
  rw [htail, List.append_assoc, run_append_eq_some_iff] at hrest
  obtain ⟨s₂, hbrace, hrun⟩ := hrest
  obtain ⟨hended', hpiece'⟩ := adds_of_run (forall_of_all (by decide)) hbrace hplace hsettle
  obtain ⟨x, hx⟩ := exists_piece hrun
  rw [hended', hended, hpiece', hpiece] at hx
  refine ⟨x, hx.trans (congrArg some ?_)⟩
  simp only [List.append_assoc]
  rfl

theorem exists_inserted {inside z : Text}
    (hdeep : s.literal = .outside → s.place ≠ .comment → 0 < s.depth)
    (h : s.run (comma inside ++ '\n' :: (entry host ++ z)) = some s') :
    ∃ w d x, (∀ c ∈ w, isBlank c = true) ∧ (d = ',' ∨ d = '\x7b') ∧
      s'.pieces[s.ended.length]? = some (s.settle.piece ++ (w ++ d :: x)) := by
  have hbrace (h : s.run ('\n' :: (entry host ++ z)) = some s') :
      ∃ w d x, (∀ c ∈ w, isBlank c = true) ∧ (d = ',' ∨ d = '\x7b') ∧
        s'.pieces[s.ended.length]? = some (s.settle.piece ++ (w ++ d :: x)) := by
    obtain ⟨x, hx⟩ := exists_brace h
    exact ⟨_, _, x, forall_of_all (by decide), .inr rfl, hx⟩
  rcases comma_cases inside with hcomma | hcomma
  · rw [hcomma] at h
    exact hbrace h
  · rw [hcomma] at h
    obtain ⟨s₁, hstep, hrun⟩ := run_cons_eq_some_iff.1 h
    by_cases hplace : s.place = .comment
    · rw [step, hplace] at hstep
      obtain rfl := Option.some.inj hstep
      exact hbrace hrun
    · obtain ⟨hended, hpiece, -, -⟩ := adds_of_step hstep hplace (by decide) fun _ hcode =>
        hdeep hcode hplace
      obtain ⟨x, hx⟩ := exists_piece hrun
      rw [hended, hpiece, List.append_assoc] at hx
      exact ⟨[], ',', x, by simp, .inl rfl, hx⟩

end Reader

/-- A bracket that is taken for the end of the array, and stands in a literal or belongs to an
element, is torn off its element. -/
theorem elements?_ne_of_bracket {inside y indent : Text} {es fs : List Text}
    (h : elements? (inside ++ ']' :: y) = some es)
    (hplace : ∀ s, Reader.start.run inside = some s → s.place ≠ .comment) :
    elements? (appended host indent inside ++ ']' :: y) ≠ some (es ++ fs) := by
  intro hnew
  obtain ⟨sf, hrun, hclose⟩ := Reader.elements?_eq_some_iff.1 h
  obtain ⟨si, hinside, hrest⟩ := Reader.run_append_eq_some_iff.1 hrun
  obtain ⟨s₁, hbracket, hy⟩ := Reader.run_cons_eq_some_iff.1 hrest
  obtain ⟨w, hw, hcut⟩ := exists_trimEnd inside
  have hsplit := hinside
  rw [hcut, Reader.run_append_eq_some_iff] at hsplit
  obtain ⟨s, hs, hblanks⟩ := hsplit
  have hblanked := Reader.blanked_of_run hw hblanks
  obtain ⟨v, hv, hpiece⟩ := hblanked.piece
  -- the bracket before the patch
  obtain ⟨hended₁, hpiece₁, -, -⟩ := Reader.adds_of_step hbracket (hplace si hinside) (by decide)
    fun hc => absurd hc (by decide)
  obtain ⟨x, hx⟩ := Reader.exists_piece hy
  rw [hended₁, hblanked.ended, hpiece₁, hpiece, List.append_assoc, List.append_assoc] at hx
  have hold := Reader.getElem?_of_close hclose hx (filled_append_append (by decide) x)
  -- the insertion in its place
  obtain ⟨sf', hrun', hclose'⟩ := Reader.elements?_eq_some_iff.1 hnew
  have hdeep (hcode : s.literal = .outside) (hcomment : s.place ≠ .comment) : 0 < s.depth := by
    refine Nat.pos_of_ne_zero fun hzero => ?_
    have hends := Reader.close_eq_some_iff.2
      ⟨hblanked.code (Reader.settle_place hcode hcomment), hblanked.depth.trans hzero, rfl⟩
    rw [Reader.step_of_close hends (by decide)] at hbracket
    cases hbracket
  rw [appended, List.append_assoc, Reader.run_append_of_run hs, List.append_assoc, List.cons_append,
    List.append_assoc] at hrun'
  obtain ⟨u, d, z, hu, hd, hz⟩ := Reader.exists_inserted hdeep hrun'
  have hblank : isBlank d = false := by rcases hd with rfl | rfl <;> decide
  have hnew' := Reader.getElem?_of_close hclose' hz (filled_append_append hblank z)
  obtain ⟨hk, -⟩ := List.getElem?_eq_some_iff.1 hold
  rw [List.getElem?_append_left hk, hold, Option.some.injEq] at hnew'
  exact trim_ne hv hu (by decide) hblank (by rcases hd with rfl | rfl <;> decide) hnew'

theorem Reader.exists_line_of_comment {s s' : Reader} {y : Text} {es : List Text}
    (hplace : s.place = .comment) (h : s.run y = some s') (hclose : s'.close = some es) :
    ∃ v u, y = v ++ '\n' :: u ∧ (s.grow ['\n']).run u = some s' := by
  have hpasses {x : Text} (hx : '\n' ∉ x) : s.run x = some s := by
    induction x with
    | nil => rfl
    | cons c x ih =>
      obtain ⟨hc, hx⟩ := not_or.1 (mt List.mem_cons.2 hx)
      rw [run_cons, step, hplace]
      simpa [Ne.symm hc] using ih hx
  have hsettle : s.settle = s := by rw [settle, hplace]
  by_cases hmem : '\n' ∈ y
  · obtain ⟨v, u, rfl, hv⟩ := List.eq_append_cons_of_mem hmem
    have hcode : s.literal = .outside := by rw [literal, hplace]
    rw [run_append_of_run (hpasses hv), run_cons, step_feed hcode, hsettle] at h
    exact ⟨v, u, rfl, h⟩
  · obtain rfl := Option.some.inj ((hpasses hmem).symm.trans h)
    have hends := (close_eq_some_iff.1 hclose).1
    rw [hsettle, hplace] at hends
    cases hends

theorem Reader.run_trimEnd_of_comment {inside : Text} {s : Reader}
    (h : start.run inside = some s) (hplace : s.place = .comment) :
    start.run (trimEnd inside) = some s := by
  obtain ⟨w, hw, hcut⟩ := exists_trimEnd inside
  rw [hcut, run_append_eq_some_iff] at h
  obtain ⟨s', hs', hblanks⟩ := h
  rwa [(blanked_of_run hw hblanks).comment hplace]

/-- A bracket in a comment that is taken for the end of the array puts the pattern into an element
that has a bracket open, and the text has no such element. -/
theorem elements?_ne_of_comment (hhost : IsQuotable host) {inside y indent : Text}
    (hindent : ∀ c ∈ indent, isBlank c = true) {es fs : List Text}
    (h : elements? (inside ++ ']' :: y) = some es) {s : Reader}
    (hinside : Reader.start.run inside = some s) (hplace : s.place = .comment)
    (hnone : ¬host <:+: y) :
    elements? (appended host indent inside ++ ']' :: y) ≠ some (es ++ fs) := by
  intro hnew
  have hcode : s.literal = .outside := by rw [Reader.literal, hplace]
  have hsettle : s.settle = s := by rw [Reader.settle, hplace]
  have hs := Reader.run_trimEnd_of_comment hinside hplace
  -- the element before the patch, and the line that ends the comment
  obtain ⟨sf, hrun, hclose⟩ := Reader.elements?_eq_some_iff.1 h
  rw [Reader.run_append_of_run hinside, Reader.run_cons, Reader.step, hplace] at hrun
  obtain ⟨v, u, rfl, hu⟩ := Reader.exists_line_of_comment hplace hrun hclose
  obtain ⟨x, hx⟩ := Reader.exists_piece hu
  -- the element with the pattern in it
  obtain ⟨sf', hrun', hclose'⟩ := Reader.elements?_eq_some_iff.1 hnew
  rw [appended, List.append_assoc, Reader.run_append_of_run hs, List.append_assoc,
    Reader.run_append_of_run (Reader.run_comma_of_comment hplace inside)] at hrun'
  by_cases hdepth : s.depth = 0
  · rw [Reader.run_append_of_run (Reader.run_line hhost hindent hcode hdepth), Reader.run_cons,
      Reader.step_of_close (Reader.close_eq_some_iff.2 ⟨rfl, rfl, rfl⟩) (by decide)] at hrun'
    cases hrun'
  · rw [List.cons_append, Reader.run_cons, Reader.step_feed hcode, Option.bind_some, hsettle,
      List.append_assoc, Reader.run_append_of_run (Reader.run_entry hhost rfl)] at hrun'
    obtain ⟨s₁, hstep, hrest⟩ := Reader.run_cons_eq_some_iff.1 hrun'
    obtain ⟨hended, hpiece, -, -⟩ := Reader.adds_of_step hstep
      (Reader.Place.within_ne_comment _) (by decide) fun _ _ => Nat.pos_of_ne_zero hdepth
    obtain ⟨z, hz⟩ := Reader.exists_piece hrest
    have hgrown : s₁.piece ++ z = s.piece ++ ['\n'] ++ (entry host ++ ',' :: z) := by
      rw [hpiece]
      simp [Reader.settle, Reader.grow]
    have hended' : s₁.ended = s.ended := hended
    have hfilled : isAllBlank (s.piece ++ ['\n']) = false :=
      filled_append_left (Reader.filled_of_depth_pos hinside (fun h => absurd h (Nat.lt_irrefl 0))
        (Nat.pos_of_ne_zero hdepth)) _
    have hold : es[s.ended.length]? = some (trim (s.piece ++ ['\n'] ++ x)) :=
      Reader.getElem?_of_close hclose hx (filled_append_left hfilled x)
    rw [hended', hgrown] at hz
    have hnew' := Reader.getElem?_of_close hclose' hz (filled_append_left hfilled _)
    obtain ⟨hk, -⟩ := List.getElem?_eq_some_iff.1 hold
    rw [List.getElem?_append_left hk, hold, Option.some.injEq] at hnew'
    obtain ⟨r, rfl⟩ := prefix_of_trim_eq hfilled (by decide) hnew'
    -- the host would stand in a literal of the text
    rw [Reader.entry_eq, List.append_assoc, List.append_assoc] at hx
    have hhosted := Reader.infix_of_run (s := s.grow ['\n']) hhost Reader.foldl_entryHead hu hx
    exact hnone (hhosted.trans ((List.suffix_cons '\n' u).trans (List.suffix_append v _)).isInfix)

theorem patch?_of_found (hlegacy : ∀ old ∈ legacy, mentions old t = false) {found : Span}
    (hfound : firstOccurrence? arrayOpening t = some found) :
    patch? t host legacy = append? t found.stop host := by
  have hfind : legacy.find? (mentions · t) = none :=
    List.find?_eq_none.2 fun old hold => by simp [hlegacy old hold]
  rw [patch?, hfind]
  simp only [hfound]

theorem exists_bracket_of_cut {depth : Nat} {t inside rest : Text}
    (h : cutAtClosing? depth t = some (inside, rest)) : ∃ r, rest = ']' :: r := by
  induction t generalizing depth inside with
  | nil => cases h
  | cons c t ih =>
    rw [cutAtClosing?] at h
    split at h
    · next hc =>
      obtain ⟨-, rfl⟩ := Prod.mk.inj (Option.some.inj h)
      obtain ⟨rfl, -⟩ : c = ']' ∧ depth ≤ 1 := by simpa using hc
      exact ⟨t, rfl⟩
    · obtain ⟨⟨inside', rest'⟩, hcut, heq⟩ := Option.map_eq_some_iff.1 h
      obtain ⟨-, rfl⟩ := Prod.mk.inj heq
      exact ih hcut

theorem cutAtClosing?_cases (content rest : Text) :
    cutAtClosing? 1 (content ++ ']' :: rest) = none ∨
    cutAtClosing? 1 (content ++ ']' :: rest) = some (content, ']' :: rest) ∨
    (∃ y r, rest = y ++ ']' :: r ∧
      cutAtClosing? 1 (content ++ ']' :: rest) = some (content ++ ']' :: y, ']' :: r)) ∨
    ∃ inside y, content = inside ++ ']' :: y ∧
      cutAtClosing? 1 (content ++ ']' :: rest) = some (inside, ']' :: (y ++ ']' :: rest)) := by
  cases hcut : cutAtClosing? 1 (content ++ ']' :: rest) with
  | none => exact .inl rfl
  | some parts =>
    obtain ⟨inside, tail⟩ := parts
    obtain ⟨r, rfl⟩ := exists_bracket_of_cut hcut
    right
    rcases append_cons_cases (append_of_cutAtClosing? hcut) with
      ⟨rfl, rfl⟩ | ⟨k, rfl, rfl⟩ | ⟨k, rfl, rfl⟩
    · exact .inl rfl
    · exact .inr (.inl ⟨k, r, rfl, rfl⟩)
    · exact .inr (.inr ⟨inside, k, rfl, rfl⟩)

/-- For a text that mentions neither the host nor a legacy host, and whose array of patterns has its
elements told with literals as units and comments left out: the patched text has there the same
elements with the pattern behind them if and only if the counted brackets lead to the end of the
array and the comma behind the last element does not go into a comment. -/
theorem patch?_appends_iff (hhost : IsQuotable host) (hnone : mentions host t = false)
    (hlegacy : ∀ old ∈ legacy, mentions old t = false) {found : Span}
    (hfound : firstOccurrence? arrayOpening t = some found) {content rest : Text}
    (hcontent : t.drop found.stop = content ++ ']' :: rest) {es : List Text}
    (hes : elements? content = some es) :
    (∃ content', patch? t host legacy = some (t.take found.stop ++ content' ++ ']' :: rest) ∧
      elements? content' = some (es ++ [trim (entry host)])) ↔
    cutAtClosing? 1 (t.drop found.stop) = some (content, ']' :: rest) ∧ ¬HidesComma content := by
  obtain ⟨u, hopen⟩ := exists_take_of_firstOccurrence? hfound
  have hpatch : patch? t host legacy = append? t found.stop host := patch?_of_found hlegacy hfound
  have happend {inside r : Text} (hcut : cutAtClosing? 1 (t.drop found.stop) = some (inside, r)) :
      ∃ indent, (∀ c ∈ indent, isBlank c = true) ∧ ∀ content',
        patch? t host legacy = some (t.take found.stop ++ content' ++ ']' :: rest) ↔
          appended host indent inside ++ r = content' ++ ']' :: rest := by
    obtain ⟨indent, hindent, hpatched⟩ := exists_of_append? host hopen hcut
    refine ⟨indent, hindent, fun content' => ?_⟩
    rw [hpatch, hpatched, Option.some.injEq, List.append_assoc, List.append_assoc,
      List.append_cancel_left_eq]
  -- the count does not end, or it ends with the array, or behind it, or inside of it
  rcases cutAtClosing?_cases content rest with hcut | hcut | hcut | hcut
  · rw [hcontent, hcut]
    refine iff_of_false ?_ fun h => Option.some_ne_none _ h.1.symm
    rintro ⟨content', hnew, -⟩
    rw [hpatch, append?, hcontent, hcut] at hnew
    cases hnew
  · rw [← hcontent] at hcut
    obtain ⟨indent, hindent, hnew⟩ := happend hcut
    simp only [hnew, List.append_cancel_right_eq, exists_eq_left', hcut, true_and]
    exact elements?_appended_iff hhost hindent hes
  · obtain ⟨y, r, rfl, hcut⟩ := hcut
    rw [← hcontent] at hcut
    obtain ⟨indent, hindent, hnew⟩ := happend hcut
    refine iff_of_false ?_ fun h => ?_
    · rintro ⟨content', heq, hels⟩
      exact elements?_ne_of_past hes ((hnew content').1 heq) hels
    · have hlen := congrArg (fun cut => cut.map (·.1.length)) (hcut.symm.trans h.1)
      simp at hlen
  · obtain ⟨inside, y, rfl, hcut⟩ := hcut
    rw [← hcontent] at hcut
    obtain ⟨indent, hindent, hnew⟩ := happend hcut
    refine iff_of_false ?_ fun h => ?_
    · rintro ⟨content', heq, hels⟩
      rw [hnew, ← List.cons_append, ← List.append_assoc, List.append_cancel_right_eq] at heq
      subst heq
      obtain ⟨s, hrun, -⟩ := Reader.elements?_eq_some_iff.1 hes
      obtain ⟨si, hinside, -⟩ := Reader.run_append_eq_some_iff.1 hrun
      by_cases hplace : si.place = .comment
      · refine elements?_ne_of_comment hhost hindent hes hinside hplace (fun hy => ?_) hels
        have hinfix : y <:+: t.drop found.stop := by
          rw [hcontent]
          exact ⟨inside ++ [']'], ']' :: rest, by simp⟩
        have hmentions : mentions host t = true :=
          mentions_iff.2 ((hy.trans hinfix).trans (List.drop_suffix _ _).isInfix)
        rw [hnone] at hmentions
        cases hmentions
      · refine elements?_ne_of_bracket hes (fun s hs => ?_) hels
        rwa [Option.some.inj (hs.symm.trans hinside)]
    · have hlen := congrArg (fun cut => cut.map (·.1.length)) (hcut.symm.trans h.1)
      simp at hlen

/-- An array with brackets in balance in a literal and in a comment, and a comma before its end. -/
theorem patch?_appends_iff_balanced :
    let host := "c.d".toList
    let head := "module.exports = \x7b images: \x7b remotePatterns: [".toList
    let content := "\n  \x7b pathname: '/[id]/**' \x7d, // [one]\n".toList
    let rest := " \x7d \x7d".toList
    let t := head ++ content ++ ']' :: rest
    IsQuotable host ∧ mentions host t = false ∧
    firstOccurrence? arrayOpening t = some ⟨29, head.length⟩ ∧
    t.drop head.length = content ++ ']' :: rest ∧
    elements? content = some ["\x7b pathname: '/[id]/**' \x7d".toList] ∧
    ∃ content', patch? t host [] = some (t.take head.length ++ content' ++ ']' :: rest) ∧
      elements? content' =
        some ["\x7b pathname: '/[id]/**' \x7d".toList, trim (entry host)] := by
  intro host head content rest t
  have hhost : IsQuotable host := forall_of_all (by decide)
  have hnone : mentions host t = false := by decide +kernel
  have hfound : firstOccurrence? arrayOpening t = some ⟨29, head.length⟩ := by decide +kernel
  have hcontent : t.drop head.length = content ++ ']' :: rest := by decide +kernel
  have hes : elements? content = some ["\x7b pathname: '/[id]/**' \x7d".toList] := by
    decide +kernel
  have hcut : cutAtClosing? 1 (t.drop head.length) = some (content, ']' :: rest) := by
    decide +kernel
  have hshows : ¬HidesComma content := by decide +kernel
  have hlegacy : ∀ old ∈ ([] : List Text), mentions old t = false := by simp
  exact ⟨hhost, hnone, hfound, hcontent, hes,
    (patch?_appends_iff hhost hnone hlegacy hfound hcontent hes).2 ⟨hcut, hshows⟩⟩

/-- A remark behind the last element takes up the comma, so that the pattern is no element of its
own; a bracket in a literal has the pattern put into the literal. -/
theorem patch?_tears_elements :
    let host := "c.d".toList
    let head := "module.exports = \x7b\n  images: \x7b\n    remotePatterns: [".toList
    let rest := "\n  \x7d\n\x7d;\n".toList
    let noted := "\n      \x7b hostname: 'a.b' \x7d // last\n    ".toList
    let noted' := "\n      \x7b hostname: 'a.b' \x7d // last,\n".toList ++ entry host ++
      ",\n    ".toList
    let literal := "\n      \x7b pathname: '/]/**' \x7d\n    ".toList
    let literal' := "\n      \x7b pathname: '/,\n".toList ++ entry host ++
      ",\n]/**' \x7d\n    ".toList
    (firstOccurrence? arrayOpening (head ++ noted ++ ']' :: rest) = some ⟨35, head.length⟩ ∧
      elements? noted = some ["\x7b hostname: 'a.b' \x7d".toList] ∧
      patch? (head ++ noted ++ ']' :: rest) host [] = some (head ++ noted' ++ ']' :: rest) ∧
      elements? noted' ≠ some ["\x7b hostname: 'a.b' \x7d".toList, trim (entry host)]) ∧
    (firstOccurrence? arrayOpening (head ++ literal ++ ']' :: rest) = some ⟨35, head.length⟩ ∧
      elements? literal = some ["\x7b pathname: '/]/**' \x7d".toList] ∧
      patch? (head ++ literal ++ ']' :: rest) host [] = some (head ++ literal' ++ ']' :: rest) ∧
      elements? literal' ≠
        some ["\x7b pathname: '/]/**' \x7d".toList, trim (entry host)]) := by
  decide +kernel

end RemotePattern
end IconCatalog
