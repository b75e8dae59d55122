import IconCatalog.Proofs.Source.Pattern
import IconCatalog.Proofs.Text.Search
import IconCatalog.Source.Occurrence
/-!
What the search for a pattern finds. A part of a text in which no match starts is passed over, a
match is found where one starts, and behind a match that ends at a brace the search goes on in the
state of the line, whatever stands there.
-/
namespace IconCatalog.Source
open Text
variable {p : Pattern} {s : LineState} {position resume : Nat}

/-- No match starts in the text when its first character is met in the given state. -/
def IsSilent (p : Pattern) (s : LineState) (t : Text) : Prop :=
  ∀ u v, t = u ++ v → v ≠ [] → (u.foldl LineState.step s).admits = true → p v = none

/-- No match starts in the text, whatever its line holds before it and whatever follows it. -/
def IsInert (p : Pattern) (z : Text) : Prop :=
  ∀ u v, z = u ++ v → v ≠ [] → ∀ rest, p (v ++ rest) = none

theorem occurrencesFrom_of_none {c : Char} {t : Text}
    (h : resume ≤ position → s.admits = true → p (c :: t) = none) :
    occurrencesFrom p s position resume (c :: t) =
      occurrencesFrom p (s.step c) (position + 1) resume t := by
  rw [occurrencesFrom]
  by_cases hstart : resume ≤ position ∧ s.admits = true
  · simp [hstart, h hstart.1 hstart.2]
  · have hfalse : ¬((decide (resume ≤ position) && s.admits) = true) := by simpa using hstart
    simp [hfalse]

/-- The search finds a match and goes on behind it, or it passes over a character. -/
theorem occurrencesFrom_cons_cases (p : Pattern) (s : LineState) (position resume : Nat) (c : Char)
    (t : Text) :
    (∃ r stop, resume ≤ position ∧ s.admits = true ∧ p (c :: t) = some r ∧
      stop = position + ((c :: t).length - r.length) ∧
      occurrencesFrom p s position resume (c :: t) =
        ⟨position, stop⟩ :: occurrencesFrom p (s.step c) (position + 1) stop t) ∨
    (resume ≤ position → s.admits = true → p (c :: t) = none) ∧
      occurrencesFrom p s position resume (c :: t) =
        occurrencesFrom p (s.step c) (position + 1) resume t := by
  by_cases h : resume ≤ position ∧ s.admits = true ∧ ∃ r, p (c :: t) = some r
  · obtain ⟨hr, hs, r, hm⟩ := h
    exact .inl ⟨r, _, hr, hs, hm, rfl, by simp [occurrencesFrom, hr, hs, hm]⟩
  · have hnone : resume ≤ position → s.admits = true → p (c :: t) = none := fun hr hs =>
      Option.eq_none_iff_forall_ne_some.2 fun r hm => h ⟨hr, hs, r, hm⟩
    exact .inr ⟨hnone, occurrencesFrom_of_none hnone⟩

theorem occurrencesFrom_append {w t : Text}
    (h : ∀ u v, w = u ++ v → v ≠ [] → resume ≤ position + u.length →
      (u.foldl LineState.step s).admits = true → p (v ++ t) = none) :
    occurrencesFrom p s position resume (w ++ t) =
      occurrencesFrom p (w.foldl LineState.step s) (position + w.length) resume t := by
  induction w generalizing s position with
  | nil => rfl
  | cons c w ih =>
    have hfirst : resume ≤ position → s.admits = true → p (c :: (w ++ t)) = none :=
      fun hr hs => h [] (c :: w) rfl (List.cons_ne_nil c w) (by simpa using hr) hs
    have hrest : occurrencesFrom p (s.step c) (position + 1) resume (w ++ t) =
        occurrencesFrom p (w.foldl LineState.step (s.step c)) (position + 1 + w.length) resume
          t := by
      refine ih fun u v hw hv hr hs => h (c :: u) v (by rw [hw]; rfl) hv ?_ hs
      rw [List.length_cons]
      omega
    have hposition : position + 1 + w.length = position + (c :: w).length := by
      rw [List.length_cons]
      omega
    rw [List.cons_append, occurrencesFrom_of_none hfirst, hrest, hposition]
    rfl

theorem occurrencesFrom_inert {w t : Text} (hw : IsInert p w) :
    occurrencesFrom p s position resume (w ++ t) =
      occurrencesFrom p (w.foldl LineState.step s) (position + w.length) resume t :=
  occurrencesFrom_append fun u v huv hv _ _ => hw u v huv hv t

theorem isSilent_cons {c : Char} {t : Text} :
    IsSilent p s (c :: t) ↔ (s.admits = true → p (c :: t) = none) ∧ IsSilent p (s.step c) t := by
  constructor
  · intro h
    exact ⟨h [] (c :: t) rfl (List.cons_ne_nil c t),
      fun u v htuv hv hs => h (c :: u) v (by rw [htuv]; rfl) hv hs⟩
  · intro ⟨hnone, hrest⟩ u v huv hv hs
    cases u with
    | nil =>
      obtain rfl : c :: t = v := huv
      exact hnone hs
    | cons d u =>
      obtain ⟨rfl, htuv⟩ := List.cons.inj huv
      exact hrest u v htuv hv hs

theorem occurrencesFrom_eq_nil_iff {t : Text} (h : resume ≤ position) :
    occurrencesFrom p s position resume t = [] ↔ IsSilent p s t := by
  induction t generalizing s position with
  | nil => exact ⟨fun _ u v huv hv => absurd (List.append_eq_nil_iff.1 huv.symm).2 hv, fun _ => rfl⟩
  | cons c t ih =>
    have hstep := @ih (s.step c) (position + 1) (by omega)
    rw [isSilent_cons, ← hstep]
    rcases occurrencesFrom_cons_cases p s position resume c t with
      ⟨r, stop, -, hs, hm, -, heq⟩ | ⟨hnone, heq⟩
    · simp [heq, hs, hm]
    · rw [heq]
      exact ⟨fun hnil => ⟨hnone h, hnil⟩, fun hnil => hnil.2⟩

theorem occurrencesFrom_match {w t : Text} (hw : w ≠ []) (hm : p (w ++ t) = some t)
    (hr : resume ≤ position) (hs : s.admits = true) :
    occurrencesFrom p s position resume (w ++ t) =
      ⟨position, position + w.length⟩ ::
        occurrencesFrom p (w.foldl LineState.step s) (position + w.length) (position + w.length)
          t := by
  cases w with
  | nil => exact absurd rfl hw
  | cons c w =>
    have hlen : (c :: (w ++ t)).length - t.length = (c :: w).length := by
      simp only [List.length_cons, List.length_append]
      omega
    have hskip :=
      @occurrencesFrom_append p (s.step c) (position + 1) (position + (c :: w).length) w t
      (fun u v huv hv hle => absurd hle (by
        have := List.length_pos_iff.2 hv
        simp only [huv, List.length_cons, List.length_append]
        omega))
    have hposition : position + 1 + w.length = position + (c :: w).length := by
      rw [List.length_cons]
      omega
    rw [hposition] at hskip
    rw [List.cons_append] at hm ⊢
    rw [occurrencesFrom]
    simp only [hr, hs, hm, hlen, decide_true, Bool.and_self, if_true]
    rw [hskip]
    rfl

variable {IsHeading : Text → Prop}

theorem exists_of_occurrencesFrom (hp : p.EndsAtBrace IsHeading) {t : Text} {span : Span}
    {spans : List Span} (h : occurrencesFrom p s position resume t = span :: spans) :
    ∃ x u rest, t = x ++ (u ++ '\x7b' :: rest) ∧ IsHeading u ∧
      span = ⟨position + x.length, position + x.length + (u.length + 1)⟩ ∧
      resume ≤ position + x.length ∧ (x.foldl LineState.step s).admits = true ∧
      ∀ y v, x = y ++ v → v ≠ [] → resume ≤ position + y.length →
        (y.foldl LineState.step s).admits = true → p (v ++ (u ++ '\x7b' :: rest)) = none := by
  induction t generalizing s position with
  | nil => simp [occurrencesFrom] at h
  | cons c t ih =>
    rcases occurrencesFrom_cons_cases p s position resume c t with
      ⟨r, stop, hr, hs, hm, rfl, heq⟩ | ⟨hnone, heq⟩
    · obtain ⟨u, hu, ht⟩ := hp.eq_some_iff.1 hm
      refine ⟨[], u, r, ht, hu, ?_, hr, hs, fun y v hyv hv => ?_⟩
      · rw [heq, List.cons.injEq] at h
        rw [← h.1, ht]
        simp only [List.length_append, List.length_cons, List.length_nil, Span.mk.injEq]
        omega
      · exact absurd (List.append_eq_nil_iff.1 hyv.symm).2 hv
    · rw [heq] at h
      obtain ⟨x, u, rest, ht, hu, hspan, hr, hs, hbefore⟩ := ih h
      refine ⟨c :: x, u, rest, by rw [ht]; rfl, hu, ?_, ?_, hs, fun y v hyv hv hle hy => ?_⟩
      · rw [hspan]
        simp only [List.length_cons, Span.mk.injEq]
        omega
      · rw [List.length_cons]
        omega
      · cases y with
        | nil =>
          obtain rfl : c :: x = v := hyv
          rw [List.cons_append, ← ht]
          exact hnone hle hy
        | cons d y =>
          obtain ⟨rfl, hxyv⟩ := List.cons.inj hyv
          refine hbefore y v hxyv hv ?_ hy
          rw [List.length_cons] at hle
          omega

theorem stop_le_of_occurrences (hp : p.EndsAtBrace IsHeading) {t : Text} {span : Span}
    {spans : List Span} (h : occurrences p t = span :: spans) : span.stop ≤ t.length := by
  obtain ⟨x, u, rest, ht, -, hspan, -⟩ := exists_of_occurrencesFrom hp h
  rw [hspan, ht]
  simp only [List.length_append, List.length_cons]
  omega

theorem append_of_occurrences (hp : p.EndsAtBrace IsHeading) {t head rest : Text} {span : Span}
    {spans : List Span} (h : occurrences p t = span :: spans) (hhead : head = t.take span.stop)
    (hrest : t.drop span.stop = rest) : t = head ++ rest ∧ span.stop = head.length := by
  have hstop := stop_le_of_occurrences hp h
  rw [hhead, ← hrest, List.take_append_drop, List.length_take]
  exact ⟨rfl, by omega⟩

theorem getLast?_of_occurrences (hp : p.EndsAtBrace IsHeading) {head rest : Text} {span : Span}
    {spans : List Span} (h : occurrences p (head ++ rest) = span :: spans)
    (hstop : span.stop = head.length) : head.getLast? = some '\x7b' := by
  obtain ⟨x, u, more, ht, -, hspan, -⟩ := exists_of_occurrencesFrom hp h
  have hlen : (x ++ (u ++ ['\x7b'])).length = head.length := by
    rw [← hstop, hspan]
    simp only [List.length_append, List.length_cons, List.length_nil]
    omega
  have hsplit : head ++ rest = x ++ (u ++ ['\x7b']) ++ more := by rw [ht]; simp
  obtain ⟨rfl, -⟩ := List.append_inj hsplit hlen.symm
  simp

/-- If the first match ends with `head`, it does so in front of every text. -/
theorem occurrences_append (hp : p.EndsAtBrace IsHeading) {head t : Text} {span : Span}
    {spans : List Span} (h : occurrences p (head ++ t) = span :: spans)
    (hstop : span.stop = head.length) (t' : Text) :
    occurrences p (head ++ t') = span :: occurrencesFrom p (head.foldl LineState.step .start)
      head.length head.length t' := by
  obtain ⟨x, u, rest, ht, hu, hspan, -, hs, hbefore⟩ := exists_of_occurrencesFrom hp h
  have hlen : (x ++ (u ++ ['\x7b'])).length = head.length := by
    rw [← hstop, hspan]
    simp only [List.length_append, List.length_cons, List.length_nil]
    omega
  have hsplit : head ++ t = x ++ (u ++ ['\x7b']) ++ rest := by rw [ht]; simp
  obtain ⟨rfl, rfl⟩ := List.append_inj hsplit hlen.symm
  have hskip : occurrencesFrom p .start 0 0 (x ++ (u ++ ['\x7b'] ++ t')) =
      occurrencesFrom p (x.foldl LineState.step .start) (0 + x.length) 0 (u ++ ['\x7b'] ++ t') := by
    refine occurrencesFrom_append fun y v hyv hv hle hy => ?_
    have hnone : p (v ++ (u ++ ['\x7b'])) = none := by
      have := hbefore y v hyv hv (by omega) hy
      rw [show v ++ (u ++ '\x7b' :: t) = v ++ (u ++ ['\x7b']) ++ t by simp,
        hp.append (by simp)] at this
      simpa using this
    rw [show v ++ (u ++ ['\x7b'] ++ t') = v ++ (u ++ ['\x7b']) ++ t' by simp, hp.append (by simp),
      hnone]
    rfl
  have hm : p (u ++ ['\x7b'] ++ t') = some t' := hp.eq_some_iff.2 ⟨u, hu, by simp⟩
  have hfound := @occurrencesFrom_match p (x.foldl LineState.step .start) (0 + x.length) 0
    (u ++ ['\x7b']) t' (by simp) hm (by omega) hs
  rw [occurrences, List.append_assoc, hskip, hfound, hspan, List.foldl_append]
  simp

theorem occurrences_eq_singleton_iff (hp : p.EndsAtBrace IsHeading) {head t : Text} {span : Span}
    {spans : List Span} (h : occurrences p (head ++ t) = span :: spans)
    (hstop : span.stop = head.length) {t' : Text} :
    occurrences p (head ++ t') = [span] ↔
      IsSilent p (head.foldl LineState.step .start) t' := by
  rw [occurrences_append hp h hstop, List.cons.injEq, occurrencesFrom_eq_nil_iff (Nat.le_refl _)]
  simp

theorem isInert_nil : IsInert p [] :=
  fun _ _ huv hv => absurd (List.append_eq_nil_iff.1 huv.symm).2 hv

theorem IsInert.append {y z : Text} (hy : IsInert p y) (hz : IsInert p z) : IsInert p (y ++ z) := by
  intro u v huv hv rest
  rcases List.append_eq_append_iff.1 huv with ⟨a, rfl, rfl⟩ | ⟨a, rfl, rfl⟩
  · exact hz a v rfl hv rest
  · cases a with
    | nil => exact hz [] z rfl hv rest
    | cons c a =>
      rw [List.append_assoc]
      exact hy u (c :: a) rfl (List.cons_ne_nil c a) _

theorem isInert_of_no_word {word z : Text} {c : Char}
    (hp : ∀ {t r}, p t = some r → word <+: t) (hword : ¬word <:+: z) (hlast : z.getLast? = some c)
    (hc : c ∉ word) : IsInert p z := by
  intro u v huv hv rest
  cases hm : p (v ++ rest) with
  | none => rfl
  | some r =>
    obtain ⟨more, hmore⟩ := hp hm
    have hend (l m : Text) (hl : word = l ++ m) (_ : m ≠ []) : l.getLast? ≠ some c := fun h =>
      hc (hl ▸ List.mem_append_left m (List.mem_of_getLast? h))
    exact absurd hmore.symm (not_prefix_of_last huv hv hlast hword hend)

theorem IsSilent.of_append {a b : Text} (h : IsSilent p s (a ++ b)) :
    IsSilent p (a.foldl LineState.step s) b := fun u v huv hv hs =>
  h (a ++ u) v (by rw [huv, List.append_assoc]) hv (by rwa [List.foldl_append])

theorem IsInert.isSilent_append {z t : Text} (hz : IsInert p z)
    (ht : IsSilent p (z.foldl LineState.step s) t) : IsSilent p s (z ++ t) := by
  intro u v huv hv hs
  rcases List.append_eq_append_iff.1 huv with ⟨a, rfl, rfl⟩ | ⟨a, rfl, rfl⟩
  · rw [List.foldl_append] at hs
    exact ht a v rfl hv hs
  · cases a with
    | nil => exact ht [] t rfl hv (by simpa using hs)
    | cons c a => exact hz u (c :: a) rfl (List.cons_ne_nil c a) t

theorem commented_foldl_step (hs : s.commented = true) {w : Text} (hw : '\n' ∉ w) :
    (w.foldl LineState.step s).commented = true := by
  induction w generalizing s with
  | nil => exact hs
  | cons c w ih =>
    rw [List.mem_cons, not_or] at hw
    rw [List.foldl_cons]
    exact ih (by simp [LineState.step, Ne.symm hw.1, hs]) hw.2

theorem commented_of_blank {w : Text} (hw : ∀ c ∈ w, c = ' ' ∨ c = '\t')
    (hs : s.literal = .outside) : ((w ++ commentMark).foldl LineState.step s).commented = true := by
  induction w generalizing s with
  | nil => simp [commentMark, LineState.step, Literal.step, Literal.isQuote, hs, doubleQuote,
      singleQuote, backtick]
  | cons c w ih =>
    rw [List.cons_append, List.foldl_cons]
    refine ih (fun d hd => hw d (.tail c hd)) ?_
    rcases hw c List.mem_cons_self with rfl | rfl <;>
      simp [LineState.step, Literal.step, Literal.isQuote, hs, doubleQuote, singleQuote, backtick]

theorem not_admits_of_commented (hs : s.commented = true) : s.admits = false := by
  simp [LineState.admits, hs]

theorem occurrencesFrom_of_commented (hs : s.commented = true) {w : Text} (hw : '\n' ∉ w)
    (t : Text) : occurrencesFrom p s position resume (w ++ '\n' :: t) =
      occurrencesFrom p .start (position + (w.length + 1)) resume t := by
  have hnone {s : LineState} (hs : s.commented = true) (u : Text) :
      s.admits = true → p u = none := fun h => by
    rw [not_admits_of_commented hs] at h
    exact nomatch h
  induction w generalizing s position with
  | nil => exact occurrencesFrom_of_none fun _ => hnone hs _
  | cons c w ih =>
    rw [List.mem_cons, not_or] at hw
    have hstep : (s.step c).commented = true := by simp [LineState.step, Ne.symm hw.1, hs]
    rw [List.cons_append, occurrencesFrom_of_none fun _ => hnone hs _, ih hstep hw.2,
      List.length_cons]
    exact congrArg (occurrencesFrom p .start · resume t) (by omega)

theorem isSilent_of_commented (hs : s.commented = true) {w t : Text} (hw : '\n' ∉ w)
    (ht : IsSilent p .start t) : IsSilent p s (w ++ '\n' :: t) := by
  have hle : 0 ≤ 0 + (w.length + 1) := Nat.zero_le _
  rw [← occurrencesFrom_eq_nil_iff (Nat.le_refl 0), occurrencesFrom_of_commented hs hw,
    occurrencesFrom_eq_nil_iff hle]
  exact ht

theorem IsInert.isSilent {z : Text} (h : IsInert p z) (s : LineState) : IsSilent p s z :=
  fun u v huv hv _ => by simpa using h u v huv hv []

theorem occurrences_of_isInert (hp : p.EndsAtBrace IsHeading) {y w t : Text} (hy : IsInert p y)
    (hs : (y.foldl LineState.step .start).admits = true) (hbrace : '\x7b' ∈ w) (hw : p w = some [])
    (ht : IsInert p t) : occurrences p (y ++ w ++ t) = [⟨y.length, y.length + w.length⟩] := by
  have hne : w ≠ [] := List.ne_nil_of_mem hbrace
  have hm : p (w ++ t) = some t := by rw [hp.append hbrace, hw]; rfl
  have hfound :=
    @occurrencesFrom_match p (y.foldl LineState.step .start) (0 + y.length) 0 w t hne hm
    (by omega) hs
  rw [occurrences, List.append_assoc, occurrencesFrom_inert hy, hfound,
    (occurrencesFrom_eq_nil_iff (Nat.le_refl _)).2 (ht.isSilent _)]
  simp

theorem literal_foldl_step {l : Text} (hl : '\n' ∉ l) (s : LineState) :
    (l.foldl LineState.step s).literal = l.foldl Literal.step s.literal := by
  induction l generalizing s with
  | nil => rfl
  | cons c l ih =>
    rw [List.mem_cons, not_or] at hl
    rw [List.foldl_cons, List.foldl_cons, ih hl.2]
    simp [LineState.step, Ne.symm hl.1]

theorem foldl_step_newline (s : LineState) (t : Text) :
    (t ++ ['\n']).foldl LineState.step s = .start := by
  rw [List.foldl_append]
  rfl

/-- In the middle of a silent text, `g` may give way to an inert text `z` that leaves the line in
the same state, if no match can reach from before it into what follows. -/
theorem IsSilent.replace (hp : p.EndsAtBrace IsHeading) {a g b z : Text}
    (h : IsSilent p s (a ++ (g ++ b))) (hz : IsInert p z)
    (hbarrier : ∀ u, '\x7b' ∉ u → p (u ++ (z ++ b)) = none)
    (hstate : (a ++ g).foldl LineState.step s = (a ++ z).foldl LineState.step s) :
    IsSilent p s (a ++ (z ++ b)) := by
  intro u v huv hv hs
  rcases List.append_eq_append_iff.1 huv with ⟨c, rfl, hc⟩ | ⟨c, rfl, rfl⟩
  · rcases List.append_eq_append_iff.1 hc with ⟨d, rfl, rfl⟩ | ⟨d, rfl, rfl⟩
    · refine h (a ++ g ++ d) v (by simp) hv ?_
      rwa [List.foldl_append, hstate, ← List.foldl_append, List.append_assoc]
    · cases d with
      | nil =>
        refine h (a ++ g) b (by simp) hv ?_
        rw [hstate]
        simpa using hs
      | cons e d => exact hz c (e :: d) rfl (List.cons_ne_nil e d) b
  · by_cases hbrace : '\x7b' ∈ c
    · have hnone : p (c ++ (g ++ b)) = none := by
        refine h u (c ++ (g ++ b)) (by simp) (fun hnil => ?_) hs
        rw [(List.append_eq_nil_iff.1 hnil).1] at hbrace
        exact absurd hbrace (by simp)
      rw [hp.append hbrace] at hnone ⊢
      simpa using hnone
    · exact hbarrier c hbrace

def Span.shift (span : Span) (n : Nat) : Span := ⟨n + span.start, n + span.stop⟩

theorem occurrencesFrom_shift {n resume' : Nat} {t : Text}
    (h : ∀ q, position ≤ q → (resume' ≤ n + q ↔ resume ≤ q)) :
    occurrencesFrom p s (n + position) resume' t =
      (occurrencesFrom p s position resume t).map (·.shift n) := by
  induction t generalizing s position resume resume' with
  | nil => rfl
  | cons c t ih =>
    have hnext (r r' : Nat) (hr : ∀ q, position ≤ q → (r' ≤ n + q ↔ r ≤ q)) :
        occurrencesFrom p (s.step c) (n + position + 1) r' t =
          (occurrencesFrom p (s.step c) (position + 1) r t).map (·.shift n) := by
      rw [Nat.add_assoc]
      exact ih fun q hq => hr q (by omega)
    have hresume := h position (Nat.le_refl _)
    rw [occurrencesFrom, occurrencesFrom]
    simp only [hresume]
    split
    · exact hnext resume resume' h
    · next rest _ =>
      let length := (c :: t).length - rest.length
      rw [List.map_cons, hnext (position + length) (n + position + length) fun q _ => by omega]
      simp [Span.shift, Nat.add_assoc, length]

/-- Where every match that may start in a text is settled by its brace, what follows the text has no
part in them. -/
theorem exists_occurrencesFrom_append (hp : p.EndsAtBrace IsHeading) {a : Text} {Z : Text → Prop}
    (h : ∀ u v, a = u ++ v → v ≠ [] → (u.foldl LineState.step s).admits = true →
      '\x7b' ∈ v ∨ ∀ z, Z z → p (v ++ z) = none) (hresume : resume ≤ position + a.length) :
    ∃ spans resume', (∀ span ∈ spans, span.stop ≤ position + a.length) ∧
      resume' ≤ position + a.length ∧
      ∀ z, Z z → occurrencesFrom p s position resume (a ++ z) =
        spans ++ occurrencesFrom p (a.foldl LineState.step s) (position + a.length) resume' z := by
  induction a generalizing s position resume with
  | nil => exact ⟨[], resume, by simp, hresume, fun z _ => rfl⟩
  | cons c a ih =>
    have hlength : position + (c :: a).length = position + 1 + a.length := by
      rw [List.length_cons]
      omega
    have hnext (r : Nat) (hr : r ≤ position + (c :: a).length) :
        ∃ spans resume', (∀ span ∈ spans, span.stop ≤ position + (c :: a).length) ∧
          resume' ≤ position + (c :: a).length ∧
          ∀ z, Z z → occurrencesFrom p (s.step c) (position + 1) r (a ++ z) =
            spans ++ occurrencesFrom p ((c :: a).foldl LineState.step s)
              (position + (c :: a).length) resume' z := by
      rw [hlength] at hr ⊢
      exact ih (fun u v hav => h (c :: u) v (by rw [hav]; rfl)) hr
    by_cases hfound : resume ≤ position ∧ s.admits = true ∧ p (c :: a) ≠ none
    · obtain ⟨hr, hs, hm⟩ := hfound
      obtain ⟨r, hm⟩ := Option.ne_none_iff_exists'.1 hm
      obtain ⟨u, hu, hsplit⟩ := hp.eq_some_iff.1 hm
      have hbrace : '\x7b' ∈ c :: a := by rw [hsplit]; simp
      have hle : (c :: a).length - r.length ≤ (c :: a).length := Nat.sub_le ..
      obtain ⟨spans, resume', hstop, hr', hall⟩ :=
        hnext (position + ((c :: a).length - r.length)) (by omega)
      refine ⟨⟨position, position + ((c :: a).length - r.length)⟩ :: spans, resume',
        List.forall_mem_cons.2 ⟨by simp only; omega, hstop⟩, hr', fun z hz => ?_⟩
      have hmatch : p (c :: (a ++ z)) = some (r ++ z) := by
        rw [← List.cons_append, hp.append hbrace, hm]
        rfl
      have hlen : (c :: (a ++ z)).length - (r ++ z).length = (c :: a).length - r.length := by
        simp only [List.length_cons, List.length_append]
        omega
      rw [List.cons_append, occurrencesFrom]
      simp only [hr, hs, hmatch, hlen, decide_true, Bool.and_self, if_true]
      rw [hall z hz]
      rfl
    · obtain ⟨spans, resume', hstop, hr', hall⟩ := hnext resume hresume
      refine ⟨spans, resume', hstop, hr', fun z hz => ?_⟩
      have hnone : resume ≤ position → s.admits = true → p (c :: (a ++ z)) = none := by
        intro hr hs
        have hm : p (c :: a) = none := by
          cases hm : p (c :: a) with
          | none => rfl
          | some r => exact absurd ⟨hr, hs, by simp [hm]⟩ hfound
        cases h [] (c :: a) rfl (List.cons_ne_nil c a) hs with
        | inl hbrace =>
          rw [← List.cons_append, hp.append hbrace, hm]
          rfl
        | inr hall => exact hall z hz
      rw [List.cons_append, occurrencesFrom_of_none hnone, hall z hz]

def IsSilentBefore (p : Pattern) (s : LineState) (t rest : Text) : Prop :=
  ∀ u v, t = u ++ v → v ≠ [] → (u.foldl LineState.step s).admits = true → p (v ++ rest) = none

theorem IsInert.isSilentBefore {z : Text} (h : IsInert p z) (s : LineState) (rest : Text) :
    IsSilentBefore p s z rest := fun u v huv hv _ => h u v huv hv rest

theorem isSilentBefore_nil_iff {t : Text} : IsSilentBefore p s t [] ↔ IsSilent p s t := by
  simp only [IsSilentBefore, IsSilent, List.append_nil]

theorem isSilentBefore_append_iff {a b rest : Text} : IsSilentBefore p s (a ++ b) rest ↔
    IsSilentBefore p s a (b ++ rest) ∧ IsSilentBefore p (a.foldl LineState.step s) b rest := by
  constructor
  · intro h
    refine ⟨fun u v huv hv hs => ?_, fun u v huv hv hs => ?_⟩
    · rw [← List.append_assoc]
      exact h u (v ++ b) (by rw [huv, List.append_assoc]) (by simp [hv]) hs
    · exact h (a ++ u) v (by rw [huv, List.append_assoc]) hv (by rwa [List.foldl_append])
  · intro ⟨ha, hb⟩ u v huv hv hs
    rcases List.append_eq_append_iff.1 huv with ⟨k, rfl, rfl⟩ | ⟨k, rfl, rfl⟩
    · exact hb k v rfl hv (by rwa [List.foldl_append] at hs)
    · cases k with
      | nil => exact hb [] b rfl hv (by simpa using hs)
      | cons c k =>
        rw [List.append_assoc]
        exact ha u (c :: k) rfl (List.cons_ne_nil c k) hs

theorem firstOccurrence?_eq_none_iff {t : Text} :
    firstOccurrence? p t = none ↔ IsSilent p .start t := by
  rw [firstOccurrence?, List.head?_eq_none_iff, occurrences,
    occurrencesFrom_eq_nil_iff (Nat.le_refl _)]

theorem firstOccurrence?_of_match {u v r : Text} (hu : IsSilentBefore p .start u v) (hv : v ≠ [])
    (hs : (u.foldl LineState.step .start).admits = true) (hm : p v = some r) :
    firstOccurrence? p (u ++ v) = some ⟨u.length, u.length + (v.length - r.length)⟩ := by
  cases v with
  | nil => exact absurd rfl hv
  | cons c v =>
    rw [firstOccurrence?, occurrences, occurrencesFrom_append fun x y hxy hy _ => hu x y hxy hy,
      occurrencesFrom]
    simp [hs, hm]

theorem firstOccurrence?_ne_none {u v r : Text} (hv : v ≠ [])
    (hs : (u.foldl LineState.step .start).admits = true) (hm : p v = some r) :
    firstOccurrence? p (u ++ v) ≠ none := fun hnone => by
  rw [firstOccurrence?_eq_none_iff.1 hnone u v rfl hv hs] at hm
  exact nomatch hm

theorem exists_of_head_occurrencesFrom {t : Text} {span : Span}
    (h : (occurrencesFrom p s position 0 t).head? = some span) :
    ∃ u v r, t = u ++ v ∧ v ≠ [] ∧ (u.foldl LineState.step s).admits = true ∧ p v = some r ∧
      IsSilentBefore p s u v ∧ span.start = position + u.length := by
  induction t generalizing s position with
  | nil => exact nomatch h
  | cons c t ih =>
    rcases occurrencesFrom_cons_cases p s position 0 c t with
      ⟨r, stop, -, hs, hm, -, heq⟩ | ⟨hnone, heq⟩
    · refine ⟨[], c :: t, r, rfl, List.cons_ne_nil c t, hs, hm, fun x y hxy hy _ => ?_, ?_⟩
      · exact absurd (List.append_eq_nil_iff.1 hxy.symm).2 hy
      · rw [heq, List.head?_cons, Option.some.injEq] at h
        rw [← h]
        rfl
    · rw [heq] at h
      obtain ⟨u, v, r, rfl, hv, hs, hm, hu, hstart⟩ := ih h
      refine ⟨c :: u, v, r, rfl, hv, hs, hm, fun x y hxy hy hx => ?_, ?_⟩
      · cases x with
        | nil =>
          obtain rfl : c :: u = y := hxy
          exact hnone (Nat.zero_le _) hx
        | cons d x =>
          obtain ⟨rfl, htail⟩ := List.cons.inj hxy
          exact hu x y htail hy hx
      · rw [List.length_cons, hstart]
        omega

theorem exists_of_firstOccurrence? {t : Text} {span : Span}
    (h : firstOccurrence? p t = some span) :
    ∃ u v r, t = u ++ v ∧ v ≠ [] ∧ (u.foldl LineState.step .start).admits = true ∧ p v = some r ∧
      IsSilentBefore p .start u v ∧ span.start = u.length := by
  obtain ⟨u, v, r, ht, hv, hs, hm, hu, hstart⟩ := exists_of_head_occurrencesFrom h
  exact ⟨u, v, r, ht, hv, hs, hm, hu, by rw [hstart, Nat.zero_add]⟩

end IconCatalog.Source
