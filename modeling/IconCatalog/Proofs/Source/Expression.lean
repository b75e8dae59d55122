import IconCatalog.Proofs.Source.Token
import IconCatalog.Proofs.Text.Blank
import IconCatalog.Source.Expression
/-!
What a scan for the end of an expression accepts, told without the scan: every literal is closed,
the brackets outside literals never close more than was opened and are all closed, and no stop
stands at depth zero. A scan that has reached its stop does not depend on what follows it, so that
the text of an expression can be moved.
-/
namespace IconCatalog.Source
open Text

def code : Literal → Text → Text
  | _, [] => []
  | .outside, c :: t => if Literal.isQuote c then code (.inside c) t else c :: code .outside t
  | literal, c :: t => code (literal.step c) t

def depth (t : Text) : Int := (t.countP opensBracket : Int) - (t.countP closesBracket : Int)

/-- From depth `d` on, brackets stay above zero, end at zero, and no stop stands at zero. -/
structure IsLevel (stops : Char → Bool) (d : Int) (t : Text) : Prop where
  nonneg : ∀ p, p <+: t → 0 ≤ d + depth p
  ends : d + depth t = 0
  unstopped : ∀ p c, p ++ [c] <+: t → d + depth p = 0 → stops c = false

/-- A text of an expression: something other than blanks, with all its literals closed and with its
brackets outside literals in balance, which no comma or closing brace at depth zero cuts short. -/
structure IsExpression (x : Text) : Prop where
  closed : x.foldl Literal.step .outside = .outside
  level : IsLevel endsExpression 0 (code .outside x)
  filled : isAllBlank x = false

/-- A scan passes over the whole text without meeting a stop and is then outside every literal and
every bracket. -/
def Passes (stops : Char → Bool) : Literal → Nat → Text → Prop
  | literal, depth, [] => literal = .outside ∧ depth = 0
  | .outside, depth, c :: t =>
    if Literal.isQuote c then Passes stops (.inside c) depth t
    else if depth = 0 ∧ stops c = true then False
    else if opensBracket c then Passes stops .outside (depth + 1) t
    else if closesBracket c then depth ≠ 0 ∧ Passes stops .outside (depth - 1) t
    else Passes stops .outside depth t
  | literal, depth, c :: t => Passes stops (literal.step c) depth t

theorem map_cons_eq_some_iff {found : Option (Text × Text)} {c : Char} {x rest : Text} :
    found.map (fun (before, rest) => (c :: before, rest)) = some (x, rest) ↔
      ∃ y, x = c :: y ∧ found = some (y, rest) := by
  constructor
  · intro h
    obtain ⟨⟨y, r⟩, hy, heq⟩ := Option.map_eq_some_iff.1 h
    obtain ⟨rfl, rfl⟩ := Prod.mk.inj heq
    exact ⟨y, rfl, hy⟩
  · rintro ⟨y, rfl, rfl⟩
    rfl

variable {stops : Char → Bool}

theorem cutAt?_append {literal : Literal} {depth : Nat} {x : Text}
    (hx : Passes stops literal depth x) (t : Text) :
    cutAt? stops literal depth (x ++ t) =
      (cutAt? stops .outside 0 t).map fun (before, rest) => (x ++ before, rest) := by
  induction x generalizing literal depth with
  | nil =>
    obtain ⟨rfl, rfl⟩ := hx
    simp
  | cons c x ih =>
    have htail {l : Literal} {d : Nat} (h : Passes stops l d x) :
        (cutAt? stops l d (x ++ t)).map (fun (before, rest) => (c :: before, rest)) =
          (cutAt? stops .outside 0 t).map fun (before, rest) => (c :: x ++ before, rest) := by
      rw [ih h, Option.map_map]
      rfl
    cases literal with
    | outside =>
      simp only [Passes] at hx
      rw [List.cons_append, cutAt?]
      split at hx
      · next hq => rw [if_pos hq, htail hx]
      · next hq =>
        split at hx
        · exact hx.elim
        · next hstop =>
          have hstop' : ¬(decide (depth = 0) && stops c) = true := by simpa using hstop
          rw [if_neg hq, if_neg hstop']
          split at hx
          · next ho => rw [if_pos ho, htail hx]
          · next ho =>
            rw [if_neg ho]
            split at hx
            · next hcl => rw [if_pos hcl, if_neg hx.1, htail hx.2]
            · next hcl => rw [if_neg hcl, htail hx]
    | inside q => exact htail hx
    | escaped q => exact htail hx

theorem cutAt?_of_passes {literal : Literal} {depth : Nat} {x rest : Text}
    (hx : Passes stops literal depth x)
    (hrest : ∃ c ∈ rest.head?, Literal.isQuote c = false ∧ stops c = true) :
    cutAt? stops literal depth (x ++ rest) = some (x, rest) := by
  obtain ⟨c, hc, hq, hs⟩ := hrest
  cases rest with
  | nil => cases hc
  | cons d rest =>
    obtain rfl := Option.some.inj hc
    simp [cutAt?_append hx, cutAt?, hq, hs]

theorem cutAt?_of_closing {literal : Literal} {depth : Nat} {x : Text}
    (hx : Passes stops literal depth x) {c : Char} (hq : Literal.isQuote c = false)
    (hstop : stops c = false) (hopen : opensBracket c = false) (hclose : closesBracket c = true)
    (t : Text) : cutAt? stops literal depth (x ++ c :: t) = none := by
  simp [cutAt?_append hx, cutAt?, hq, hstop, hopen, hclose]

theorem passes_append {literal : Literal} {depth : Nat} {x : Text}
    (hx : Passes stops literal depth x) {t : Text} :
    Passes stops literal depth (x ++ t) ↔ Passes stops .outside 0 t := by
  induction x generalizing literal depth with
  | nil =>
    obtain ⟨rfl, rfl⟩ := hx
    rfl
  | cons c x ih =>
    cases literal with
    | outside =>
      simp only [Passes] at hx
      rw [List.cons_append, Passes]
      split at hx
      · next hq => rw [if_pos hq, ih hx]
      · next hq =>
        split at hx
        · exact hx.elim
        · next hstop =>
          rw [if_neg hq, if_neg hstop]
          split at hx
          · next ho => rw [if_pos ho, ih hx]
          · next ho =>
            rw [if_neg ho]
            split at hx
            · next hcl => rw [if_pos hcl, ih hx.2, and_iff_right hx.1]
            · next hcl => rw [if_neg hcl, ih hx]
    | inside q => exact ih hx
    | escaped q => exact ih hx

theorem passes_of_cutAt? {literal : Literal} {depth : Nat} {t x rest : Text}
    (h : cutAt? stops literal depth t = some (x, rest)) :
    Passes stops literal depth x ∧
      ∃ c ∈ rest.head?, Literal.isQuote c = false ∧ stops c = true := by
  induction t generalizing literal depth x with
  | nil => cases literal <;> simp [cutAt?] at h
  | cons c t ih =>
    cases literal with
    | outside =>
      simp only [cutAt?] at h
      split at h
      · next hq =>
        obtain ⟨y, rfl, hy⟩ := map_cons_eq_some_iff.1 h
        simpa [Passes, hq] using ih hy
      · next hq =>
        split at h
        · next hstop =>
          obtain ⟨rfl, rfl⟩ := Prod.mk.inj (Option.some.inj h)
          simp only [Bool.and_eq_true, decide_eq_true_eq] at hstop
          exact ⟨⟨rfl, hstop.1⟩, c, rfl, by simpa using hq, hstop.2⟩
        · next hstop =>
          have hstop' : ¬(depth = 0 ∧ stops c = true) := by simpa using hstop
          split at h
          · next ho =>
            obtain ⟨y, rfl, hy⟩ := map_cons_eq_some_iff.1 h
            simpa [Passes, hq, hstop', ho] using ih hy
          · next ho =>
            split at h
            · next hcl =>
              split at h
              · simp at h
              · next hd =>
                obtain ⟨y, rfl, hy⟩ := map_cons_eq_some_iff.1 h
                simpa [Passes, hq, hstop', ho, hcl, hd] using ih hy
            · next hcl =>
              obtain ⟨y, rfl, hy⟩ := map_cons_eq_some_iff.1 h
              simpa [Passes, hq, hstop', ho, hcl] using ih hy
    | inside q =>
      obtain ⟨y, rfl, hy⟩ := map_cons_eq_some_iff.1 h
      exact @ih _ _ y hy
    | escaped q =>
      obtain ⟨y, rfl, hy⟩ := map_cons_eq_some_iff.1 h
      exact @ih _ _ y hy

/-- A cut takes off a text that the scan passes over, and stands in front of a stop. -/
theorem cutAt?_eq_some_iff {literal : Literal} {depth : Nat} {t x rest : Text} :
    cutAt? stops literal depth t = some (x, rest) ↔
      t = x ++ rest ∧ Passes stops literal depth x ∧
        ∃ c ∈ rest.head?, Literal.isQuote c = false ∧ stops c = true :=
  ⟨fun h => ⟨append_of_cutAt? h, passes_of_cutAt? h⟩,
    fun ⟨ht, hx, hr⟩ => ht ▸ cutAt?_of_passes hx hr⟩

theorem isLevel_nil {d : Int} : IsLevel stops d [] ↔ d = 0 := by
  constructor
  · intro h; simpa [depth] using h.ends
  · rintro rfl
    exact ⟨fun p hp => by simp [List.prefix_nil.1 hp, depth], by simp [depth],
      fun p c hp => by simp at hp⟩

theorem depth_cons (c : Char) (t : Text) : depth (c :: t) = depth [c] + depth t := by
  simp only [depth, List.countP_cons, List.countP_nil]
  omega

theorem isLevel_cons {d : Int} {c : Char} {t : Text} :
    IsLevel stops d (c :: t) ↔
      0 ≤ d ∧ (d = 0 → stops c = false) ∧ IsLevel stops (d + depth [c]) t := by
  constructor
  · intro h
    refine ⟨by simpa [depth] using h.nonneg [] List.nil_prefix, fun hd => ?_, ?_, ?_, ?_⟩
    · exact h.unstopped [] c (List.prefix_append [c] t) (by simpa [depth] using hd)
    · intro p hp
      have := h.nonneg (c :: p) (List.prefix_cons_inj c |>.2 hp)
      rw [depth_cons] at this
      omega
    · have := h.ends
      rw [depth_cons] at this
      omega
    · intro p e hp hd
      refine h.unstopped (c :: p) e (List.prefix_cons_inj c |>.2 hp) ?_
      rw [depth_cons]
      omega
  · rintro ⟨hd, hs, h⟩
    refine ⟨?_, ?_, ?_⟩
    · intro p hp
      rcases List.prefix_cons_iff.1 hp with rfl | ⟨q, rfl, hq⟩
      · simpa [depth] using hd
      · have := h.nonneg q hq
        rw [depth_cons]
        omega
    · have := h.ends
      rw [depth_cons]
      omega
    · intro p e hp he
      rcases List.prefix_cons_iff.1 hp with hnil | ⟨q, hpq, hq⟩
      · simp at hnil
      · cases p with
        | nil =>
          simp only [List.nil_append, List.cons.injEq] at hpq
          exact hpq.1 ▸ hs (by simpa [depth] using he)
        | cons a p =>
          simp only [List.cons_append, List.cons.injEq] at hpq
          obtain ⟨rfl, rfl⟩ := hpq
          rw [depth_cons] at he
          exact h.unstopped p e hq (by omega)

theorem depth_singleton (c : Char) :
    depth [c] = if opensBracket c then 1 else if closesBracket c then -1 else 0 := by
  have hdisjoint : opensBracket c = true → closesBracket c = false := by
    simp only [opensBracket, Bool.or_eq_true, decide_eq_true_eq]
    rintro ((rfl | rfl) | rfl) <;> decide
  by_cases ho : opensBracket c
  · simp [depth, ho, hdisjoint ho]
  · by_cases hc : closesBracket c <;> simp [depth, ho, hc]

theorem passes_iff {literal : Literal} {d : Nat} {x : Text} :
    Passes stops literal d x ↔
      x.foldl Literal.step literal = .outside ∧ IsLevel stops d (code literal x) := by
  induction x generalizing literal d with
  | nil => simp [Passes, code, isLevel_nil]
  | cons c x ih =>
    cases literal with
    | inside q => simpa [Passes, code] using ih
    | escaped q => simpa [Passes, code] using ih
    | outside =>
      by_cases hq : Literal.isQuote c
      · simp [Passes, code, hq, ih, Literal.step]
      · have hcode : code .outside (c :: x) = c :: code .outside x := by simp [code, hq]
        have hstep : Literal.step .outside c = .outside := by simp [Literal.step, hq]
        rw [hcode, isLevel_cons, List.foldl_cons, hstep]
        by_cases hstop : d = 0 ∧ stops c = true
        · simp [Passes, hq, hstop]
        · have hfree : (d : Int) = 0 → stops c = false := fun h => by
            cases hs : stops c with
            | false => rfl
            | true => exact absurd ⟨by omega, hs⟩ hstop
          have conclude {e : Nat} (he : (e : Int) = d + depth [c])
              (hp : Passes stops .outside d (c :: x) ↔ Passes stops .outside e x) :
              Passes stops .outside d (c :: x) ↔ x.foldl Literal.step .outside = .outside ∧
                0 ≤ (d : Int) ∧ ((d : Int) = 0 → stops c = false) ∧
                  IsLevel stops (d + depth [c]) (code .outside x) := by
            rw [hp, ih, he]
            exact ⟨fun ⟨h, hl⟩ => ⟨h, by omega, hfree, hl⟩, fun ⟨h, _, _, hl⟩ => ⟨h, hl⟩⟩
          have hdepth := depth_singleton c
          by_cases ho : opensBracket c
          · rw [if_pos ho] at hdepth
            exact conclude (e := d + 1) (by omega) (by simp [Passes, hq, hstop, ho])
          · rw [if_neg ho] at hdepth
            by_cases hc : closesBracket c
            · rw [if_pos hc] at hdepth
              cases d with
              | zero =>
                have hneg : ¬IsLevel stops (-1) (code .outside x) := fun h => by
                  simpa [depth] using h.nonneg [] List.nil_prefix
                simp [Passes, hq, ho, hc, hdepth, hneg]
              | succ d =>
                exact conclude (e := d) (by omega) (by simp [Passes, hq, ho, hc])
            · rw [if_neg hc] at hdepth
              exact conclude (e := d) (by omega) (by simp [Passes, hq, hstop, ho, hc])

structure IsNeutral (stops : Char → Bool) (c : Char) : Prop where
  quote : Literal.isQuote c = false
  stop : stops c = false
  opening : opensBracket c = false
  closing : closesBracket c = false
  backslash : c ≠ '\\'

def scanMarks : Text :=
  [doubleQuote, singleQuote, backtick, '(', '[', '\x7b', ')', ']', '\x7d', ',', '\\']

theorem isNeutral_of_not_mem {c : Char} (h : c ∉ scanMarks) : IsNeutral endsExpression c := by
  simp only [scanMarks, List.mem_cons, List.not_mem_nil, or_false, not_or] at h
  constructor <;> simp [Literal.isQuote, endsExpression, opensBracket, closesBracket, h]

theorem isNeutral_of_class {p : Char → Bool} (hp : scanMarks.all (!p ·) = true) {c : Char}
    (hc : p c = true) : IsNeutral endsExpression c := by
  refine isNeutral_of_not_mem fun hmem => ?_
  have hnot := List.all_eq_true.1 hp c hmem
  rw [hc] at hnot
  exact absurd hnot (by decide)

theorem isNeutral_of_isBlank {c : Char} (h : isBlank c = true) : IsNeutral endsExpression c :=
  isNeutral_of_class (by decide) h

theorem passes_neutral_append {w : Text} (hw : ∀ c ∈ w, IsNeutral stops c) {d : Nat} {x : Text} :
    Passes stops .outside d (w ++ x) ↔ Passes stops .outside d x := by
  induction w with
  | nil => rfl
  | cons c w ih =>
    have hc := hw c List.mem_cons_self
    simp [Passes, hc.quote, hc.stop, hc.opening, hc.closing, ih fun e he => hw e (.tail c he)]

def Literal.IsProper : Literal → Prop
  | .outside => True
  | .inside q => Literal.isQuote q = true
  | .escaped q => Literal.isQuote q = true

theorem Literal.IsProper.step {literal : Literal} (h : literal.IsProper) (c : Char) :
    (literal.step c).IsProper := by
  cases literal with
  | outside => by_cases hq : Literal.isQuote c <;> simp [Literal.step, hq, Literal.IsProper]
  | escaped q => exact h
  | inside q =>
    simp only [Literal.step]
    split
    · exact h
    · split
      · trivial
      · exact h

theorem foldl_step_of_no_quote {w : Text} (hw : ∀ c ∈ w, Literal.isQuote c = false) :
    w.foldl Literal.step .outside = .outside := by
  induction w with
  | nil => rfl
  | cons c w ih =>
    have hc := hw c List.mem_cons_self
    simpa [Literal.step, hc] using ih fun d hd => hw d (.tail c hd)

theorem foldl_step_inside {quote : Char} {a : Text} (ha : ∀ x ∈ a, x ≠ '\\' ∧ x ≠ quote) :
    a.foldl Literal.step (.inside quote) = .inside quote := by
  induction a with
  | nil => rfl
  | cons x a ih =>
    have hx := ha x List.mem_cons_self
    simpa [Literal.step, hx.1, hx.2] using ih fun y hy => ha y (.tail x hy)

theorem passes_neutral {w : Text} (hw : ∀ c ∈ w, IsNeutral stops c) {literal : Literal} {d : Nat}
    (hl : literal.IsProper) : Passes stops literal d w ↔ literal = .outside ∧ d = 0 := by
  induction w generalizing literal with
  | nil => rfl
  | cons c w ih =>
    have hc := hw c List.mem_cons_self
    have ih {l : Literal} (hl : l.IsProper) := ih (fun e he => hw e (.tail c he)) hl
    cases literal with
    | outside => simp [Passes, hc.quote, hc.stop, hc.opening, hc.closing, ih hl]
    | escaped q => simp [Passes, Literal.step, ih (l := .inside q) hl]
    | inside q =>
      have hq : c ≠ q := fun h => absurd hl (by simp [Literal.IsProper, ← h, hc.quote])
      simp [Passes, Literal.step, hc.backslash, hq, ih (l := .inside q) hl]

theorem passes_append_neutral {w : Text} (hw : ∀ c ∈ w, IsNeutral stops c) {literal : Literal}
    {d : Nat} (hl : literal.IsProper) {x : Text} :
    Passes stops literal d (x ++ w) ↔ Passes stops literal d x := by
  induction x generalizing literal d with
  | nil => exact passes_neutral hw hl
  | cons c x ih =>
    have ih {d : Nat} := ih (d := d) (hl.step c)
    cases literal with
    | inside q => exact ih
    | escaped q => exact ih
    | outside =>
      by_cases hq : Literal.isQuote c
      · have hstep : Literal.step .outside c = .inside c := by simp [Literal.step, hq]
        rw [hstep] at ih
        simp [Passes, hq, ih]
      · have hstep : Literal.step .outside c = .outside := by simp [Literal.step, hq]
        rw [hstep] at ih
        simp [Passes, hq, ih]

theorem passes_inside {quote : Char} {a : Text}
    (ha : ∀ x ∈ a, x ≠ '\\' ∧ x ≠ quote) {depth : Nat} {t : Text} :
    Passes stops (.inside quote) depth (a ++ t) ↔ Passes stops (.inside quote) depth t := by
  induction a with
  | nil => rfl
  | cons x a ih =>
    have hx := ha x List.mem_cons_self
    simp [Passes, Literal.step, hx.1, hx.2, ih fun y hy => ha y (.tail x hy)]

theorem isExpression_iff {x : Text} :
    IsExpression x ↔ Passes endsExpression .outside 0 x ∧ isAllBlank x = false := by
  rw [passes_iff]
  exact ⟨fun h => ⟨⟨h.closed, h.level⟩, h.filled⟩, fun ⟨⟨hc, hl⟩, hf⟩ => ⟨hc, hl, hf⟩⟩

theorem isExpression_append_blank {w : Text} (hw : ∀ c ∈ w, isBlank c = true) {x : Text} :
    IsExpression (x ++ w) ↔ IsExpression x := by
  have hall : isAllBlank (x ++ w) = isAllBlank x := by
    simp [isAllBlank, List.all_eq_true.2 hw]
  rw [isExpression_iff, isExpression_iff, hall,
    passes_append_neutral (fun c hc => isNeutral_of_isBlank (hw c hc))
      (show Literal.IsProper .outside from trivial)]

theorem isExpression_blank_append {w : Text} (hw : ∀ c ∈ w, isBlank c = true) {x : Text} :
    IsExpression (w ++ x) ↔ IsExpression x := by
  have hall : isAllBlank (w ++ x) = isAllBlank x := by
    simp [isAllBlank, List.all_eq_true.2 hw]
  rw [isExpression_iff, isExpression_iff, hall,
    passes_neutral_append fun c hc => isNeutral_of_isBlank (hw c hc)]

theorem isExpression_trimEnd {x : Text} : IsExpression (trimEnd x) ↔ IsExpression x := by
  obtain ⟨w, hw, ht⟩ := exists_trimEnd x
  rw [← isExpression_append_blank (x := trimEnd x) hw, ← ht]

theorem isBlank_of_isGap {c : Char} (h : isGap c = true) : isBlank c = true := by
  rcases isGap_iff.1 h with rfl | rfl | rfl | rfl <;> decide

theorem isExpression_skipGap {x : Text} : IsExpression (skipGap x) ↔ IsExpression x := by
  obtain ⟨w, hw, ht⟩ := exists_gap x
  rw [← isExpression_blank_append (x := skipGap x) fun c hc => isBlank_of_isGap (hw c hc), ← ht]

theorem isQuote_of_endsExpression {c : Char} (h : endsExpression c = true) :
    Literal.isQuote c = false := by
  simp only [endsExpression, Bool.or_eq_true, decide_eq_true_eq] at h
  rcases h with rfl | rfl <;> decide

theorem expression?_eq_some_iff {t e rest : Text} :
    expression? t = some (e, rest) ↔ ∃ x, t = x ++ rest ∧ IsExpression x ∧
      (∃ c ∈ rest.head?, endsExpression c = true) ∧ e = trimEnd x := by
  unfold expression?
  constructor
  · intro h
    split at h
    · simp at h
    · next x r hcut =>
      split at h
      · simp at h
      · next hfilled =>
        obtain ⟨rfl, rfl⟩ := Prod.mk.inj (Option.some.inj h)
        obtain ⟨ht, hx, c, hc, -, hs⟩ := cutAt?_eq_some_iff.1 hcut
        exact ⟨x, ht, isExpression_iff.2 ⟨hx, by simpa using hfilled⟩, ⟨c, hc, hs⟩, rfl⟩
  · rintro ⟨x, rfl, hx, ⟨c, hc, hs⟩, rfl⟩
    obtain ⟨hp, hfilled⟩ := isExpression_iff.1 hx
    rw [cutAt?_of_passes hp ⟨c, hc, isQuote_of_endsExpression hs, hs⟩]
    simp [hfilled]

theorem IsExpression.expression? {e : Text} (h : IsExpression e) (hstop : trimEnd e = e) {w : Text}
    (hw : ∀ c ∈ w, isBlank c = true) {c : Char} (hc : endsExpression c = true) (rest : Text) :
    Source.expression? (e ++ w ++ c :: rest) = some (e, c :: rest) :=
  expression?_eq_some_iff.2 ⟨e ++ w, rfl, (isExpression_append_blank hw).2 h,
    ⟨c, rfl, hc⟩, by rw [trimEnd_append_blank hw, hstop]⟩

/-- Source text of an expression as it is kept: no layout in front of it and no blanks behind it. -/
structure IsSettled (e : Text) : Prop where
  expression : IsExpression e
  start : skipGap e = e
  stop : trimEnd e = e

theorem isSettled_of_isExpression {x : Text} (h : IsExpression x) :
    IsSettled (trimEnd (skipGap x)) := by
  have hexp : IsExpression (trimEnd (skipGap x)) :=
    isExpression_trimEnd.2 (isExpression_skipGap.2 h)
  refine ⟨hexp, skipGap_of_head fun c hc => ?_, trimEnd_trimEnd _⟩
  obtain ⟨w, -, ht⟩ := exists_trimEnd (skipGap x)
  refine head_skipGap x c ?_
  rw [ht, List.head?_append, Option.mem_def.1 hc]
  rfl

theorem IsSettled.expression? {e : Text} (h : IsSettled e) {w : Text}
    (hw : ∀ c ∈ w, isBlank c = true) {c : Char} (hc : endsExpression c = true) (rest : Text) :
    Source.expression? (e ++ w ++ c :: rest) = some (e, c :: rest) :=
  h.expression.expression? h.stop hw hc rest

theorem isExpression_of_expression? {t e rest : Text} (h : expression? t = some (e, rest)) :
    IsExpression e ∧ trimEnd e = e := by
  obtain ⟨x, -, hx, -, rfl⟩ := expression?_eq_some_iff.1 h
  exact ⟨isExpression_trimEnd.2 hx, trimEnd_trimEnd x⟩

theorem cutAt?_append_of_lt {literal : Literal} {depth : Nat} {t u before rest : Text}
    (h : cutAt? stops literal depth (t ++ u) = some (before, rest))
    (hlt : before.length < t.length) (v : Text) :
    cutAt? stops literal depth (t ++ v) = some (before, t.drop before.length ++ v) := by
  obtain ⟨hsplit, hpasses, c, hc, hq, hstop⟩ := cutAt?_eq_some_iff.1 h
  obtain ⟨inner, rfl⟩ := List.prefix_of_prefix_length_le ⟨rest, hsplit.symm⟩
    (List.prefix_append t u) (Nat.le_of_lt hlt)
  rw [List.append_assoc, List.append_cancel_left_eq] at hsplit
  -- The stop is the first character of what `t` has behind the cut, so that `v` does not matter.
  cases inner with
  | nil => simp at hlt
  | cons d inner =>
    rw [← hsplit] at hc
    rw [List.drop_left, List.append_assoc]
    exact cutAt?_of_passes hpasses ⟨c, hc, hq, hstop⟩

/-- The text that an expression was read as is read as the same expression wherever it is moved to,
with any blanks between it and a terminator; and a scan that stops within a text stops at the same
place in every text that starts like it. -/
theorem expression?_moved :
    (∀ {t e rest w : Text} {c : Char}, expression? t = some (e, rest) →
      (∀ b ∈ w, isBlank b = true) → c = ',' ∨ c = '\x7d' →
        ∀ u, expression? (e ++ w ++ c :: u) = some (e, c :: u)) ∧
    ∀ {stops : Char → Bool} {t u before rest : Text},
      cutAt? stops .outside 0 (t ++ u) = some (before, rest) → before.length < t.length →
        ∀ v, cutAt? stops .outside 0 (t ++ v) = some (before, t.drop before.length ++ v) := by
  refine ⟨fun {t e rest w c} hread hw hc u => ?_, fun h hlt v => cutAt?_append_of_lt h hlt v⟩
  obtain ⟨hexpression, hstop⟩ := isExpression_of_expression? hread
  have hends : endsExpression c = true := by
    rcases hc with rfl | rfl <;> rfl
  exact hexpression.expression? hstop hw hends u

/-- A call with terminators in a literal and in brackets is moved in front of a brace, and a
statement stops in front of its semicolon whichever literal or bracket follows. -/
theorem expression?_moved_call :
    let call : Text := " f(\x22a\\\x22,\x22, [b, \x27c\x27])".toList
    let statement : Text := "= \x7ba; b\x7d; d".toList
    let body : Text := "= \x7ba; b\x7d".toList
    expression? (call ++ "\u00a0\n, e: [".toList) = some (call, ", e: [".toList) ∧
      (∀ b ∈ "\t\u3000".toList, isBlank b = true) ∧
      expression? (call ++ "\t\u3000".toList ++ '\x7d' :: [doubleQuote]) =
        some (call, ['\x7d', doubleQuote]) ∧
      cutAt? (· = ';') .outside 0 (statement ++ [']']) = some (body, "; d]".toList) ∧
      body.length < statement.length ∧
      cutAt? (· = ';') .outside 0 (statement ++ [singleQuote]) =
        some (body, "; d".toList ++ [singleQuote]) := by
  intro call statement body
  have hread : expression? (call ++ "\u00a0\n, e: [".toList) = some (call, ", e: [".toList) := by
    decide
  have hblank : ∀ b ∈ "\t\u3000".toList, isBlank b = true := Text.forall_of_all (by decide)
  have hcut : cutAt? (· = ';') .outside 0 (statement ++ [']']) = some (body, "; d]".toList) := by
    decide
  have hlt : body.length < statement.length := by decide
  exact ⟨hread, hblank, expression?_moved.1 hread hblank (.inr rfl) [doubleQuote], hcut, hlt,
    expression?_moved.2 hcut hlt [singleQuote]⟩

end IconCatalog.Source
