import IconCatalog.Proofs.Source.Expression
import IconCatalog.Proofs.Text.Search
/-!
How the elements of an array are told apart. Commas outside of literals, comments and brackets part
them, comments are left out, and the array ends where a bracket closes that it did not open. What a
reader has passed over it keeps: the ended elements stay as they are and the open one only grows.
-/
namespace IconCatalog.RemotePattern
open Text Source

/-- Where the reader stands. Behind a slash outside of literals, another one opens a comment. -/
inductive Reader.Place where
  | within (literal : Literal)
  | slash
  | comment
  deriving DecidableEq, Repr

theorem Reader.Place.within_ne_comment (literal : Literal) : within literal ≠ .comment := by simp

/-- The elements that a comma has ended, the element that is read, and how many brackets it has
open. -/
structure Reader where
  place : Reader.Place
  depth : Nat
  ended : List Text
  piece : Text
  deriving DecidableEq, Repr

namespace Reader

def start : Reader := ⟨.within .outside, 0, [], []⟩

def add (s : Reader) (c : Char) (place : Place) : Reader :=
  { s with place := place, piece := s.piece ++ [c] }

def settle (s : Reader) : Reader :=
  match s.place with
  | .slash => s.add '/' (.within .outside)
  | _ => s

def code (s : Reader) (c : Char) : Option Reader :=
  if c = '/' then some { s with place := .slash }
  else if c = ',' && s.depth = 0 then some ⟨.within .outside, 0, s.ended ++ [s.piece], []⟩
  else if opensBracket c then some { s.add c (.within .outside) with depth := s.depth + 1 }
  else if closesBracket c then
    if s.depth = 0 then none else some { s.add c (.within .outside) with depth := s.depth - 1 }
  else some (s.add c (.within (Literal.outside.step c)))

def step (s : Reader) (c : Char) : Option Reader :=
  match s.place with
  | .within .outside => s.code c
  | .within literal => some (s.add c (.within (literal.step c)))
  | .slash => if c = '/' then some { s with place := .comment } else s.settle.code c
  | .comment => if c = '\n' then some (s.add c (.within .outside)) else some s

def run (s : Reader) (t : Text) : Option Reader := t.foldlM step s

def close (s : Reader) : Option (List Text) :=
  let last := s.settle
  if last.place = .within .outside && last.depth = 0 then
    some ((last.ended ++ if isAllBlank last.piece then [] else [last.piece]).map trim)
  else none

def literal (s : Reader) : Literal :=
  match s.place with
  | .within literal => literal
  | _ => .outside

end Reader

/-- The elements of an array, read off what stands between its brackets. -/
def elements? (content : Text) : Option (List Text) := (Reader.start.run content).bind Reader.close

namespace Reader
variable {s s' s'' : Reader} {t u : Text} {c : Char}

@[simp] theorem run_nil (s : Reader) : s.run [] = some s := rfl

theorem run_cons (s : Reader) (c : Char) (t : Text) : s.run (c :: t) = (s.step c).bind (·.run t) :=
  rfl

theorem run_append (s : Reader) (t u : Text) : s.run (t ++ u) = (s.run t).bind (·.run u) :=
  List.foldlM_append

theorem run_cons_eq_some_iff : s.run (c :: t) = some s'' ↔ ∃ s', s.step c = some s' ∧
    s'.run t = some s'' := by
  rw [run_cons, Option.bind_eq_some_iff]

theorem run_append_eq_some_iff : s.run (t ++ u) = some s'' ↔ ∃ s', s.run t = some s' ∧
    s'.run u = some s'' := by
  rw [run_append, Option.bind_eq_some_iff]

theorem run_append_of_run (h : s.run t = some s') (u : Text) : s.run (t ++ u) = s'.run u := by
  rw [run_append, h, Option.bind_some]

theorem elements?_eq_some_iff {content : Text} {es : List Text} : elements? content = some es ↔
    ∃ s, start.run content = some s ∧ s.close = some es := by
  rw [elements?, Option.bind_eq_some_iff]

theorem code_cases (h : s.code c = some s') :
    (c = '/' ∧ s' = { s with place := .slash }) ∨
    (c = ',' ∧ s.depth = 0 ∧ s' = ⟨.within .outside, 0, s.ended ++ [s.piece], []⟩) ∨
    (opensBracket c = true ∧ s' = { s.add c (.within .outside) with depth := s.depth + 1 }) ∨
    (closesBracket c = true ∧ 0 < s.depth ∧
      s' = { s.add c (.within .outside) with depth := s.depth - 1 }) ∨
    ((c = ',' → 0 < s.depth) ∧ s' = s.add c (.within (Literal.outside.step c))) := by
  unfold code at h
  split at h
  · next hc => exact .inl ⟨hc, (Option.some.inj h).symm⟩
  split at h
  · next hc =>
    obtain ⟨rfl, hdepth⟩ : c = ',' ∧ s.depth = 0 := by simpa using hc
    exact .inr (.inl ⟨rfl, hdepth, (Option.some.inj h).symm⟩)
  next hcomma =>
  split at h
  · next hc => exact .inr (.inr (.inl ⟨hc, (Option.some.inj h).symm⟩))
  split at h
  · next hc =>
    split at h
    · exact nomatch h
    · next hdepth =>
      exact .inr (.inr (.inr (.inl ⟨hc, Nat.pos_of_ne_zero hdepth, (Option.some.inj h).symm⟩)))
  · refine .inr (.inr (.inr (.inr ⟨fun hc => Nat.pos_of_ne_zero fun hdepth => hcomma ?_,
      (Option.some.inj h).symm⟩)))
    simp [hc, hdepth]

/-- What one step does: it leaves the element as it is, it adds to the element, or it ends it. -/
inductive Steps (s : Reader) (c : Char) : Reader → Prop where
  | passes {s' : Reader} (hended : s'.ended = s.ended) (hpiece : s'.piece = s.piece)
      (hdepth : s'.depth = s.depth) (hcode : s.literal = .outside)
      (hcode' : s'.literal = .outside) : Steps s c s'
  | adds {s' : Reader} (z : Text) (hz : z = [c] ∨ z = ['/', c] ∧ s.literal = .outside)
      (hended : s'.ended = s.ended) (hpiece : s'.piece = s.piece ++ z)
      (hdepth : s'.depth ≤ s.depth ∨ opensBracket c = true)
      (hliteral : s'.literal = z.foldl Literal.step s.literal) : Steps s c s'
  | ends (z : Text) (hz : z = [] ∨ z = ['/']) (hcode : s.literal = .outside)
      (hdepth : s.depth = 0) : Steps s c ⟨.within .outside, 0, s.ended ++ [s.piece ++ z], []⟩

theorem step_of_not_quote (h : Literal.isQuote c = false) : Literal.outside.step c = .outside := by
  simp [Literal.step, h]

theorem opensBracket_iff : opensBracket c = true ↔ c = '(' ∨ c = '[' ∨ c = '\x7b' := by
  simp [opensBracket, or_assoc]

theorem closesBracket_iff : closesBracket c = true ↔ c = ')' ∨ c = ']' ∨ c = '\x7d' := by
  simp [closesBracket, or_assoc]

theorem isQuote_of_opensBracket (h : opensBracket c = true) : Literal.isQuote c = false := by
  rcases opensBracket_iff.1 h with rfl | rfl | rfl <;> decide

theorem isQuote_of_closesBracket (h : closesBracket c = true) : Literal.isQuote c = false := by
  rcases closesBracket_iff.1 h with rfl | rfl | rfl <;> decide

theorem steps_of_code {r : Reader} {z : Text} (h : r.code c = some s') (hs : s.literal = .outside)
    (hr : r.ended = s.ended ∧ r.piece = s.piece ++ z ∧ r.depth = s.depth)
    (hz : z = [] ∨ z = ['/'] ∧ c ≠ '/') : Steps s c s' := by
  obtain ⟨hended, hpiece, hdepth⟩ := hr
  have hadds {l : Literal} {d : Nat} (hd : d ≤ s.depth ∨ opensBracket c = true)
      (hl : Literal.outside.step c = l) : Steps s c { r.add c (.within l) with depth := d } := by
    refine .adds (z ++ [c]) ?_ hended ?_ hd ?_
    · rcases hz with rfl | ⟨rfl, -⟩
      · exact .inl rfl
      · exact .inr ⟨rfl, hs⟩
    · rw [← List.append_assoc, ← hpiece]
      rfl
    · rw [hs, List.foldl_append]
      rcases hz with rfl | ⟨rfl, -⟩
      · exact hl.symm
      · exact hl.symm
  rcases code_cases h with ⟨rfl, rfl⟩ | ⟨rfl, hzero, rfl⟩ | ⟨hc, rfl⟩ | ⟨hc, -, rfl⟩ |
    ⟨-, rfl⟩
  · rcases hz with rfl | ⟨-, hne⟩
    · exact .passes hended (by simpa using hpiece) hdepth hs rfl
    · exact absurd rfl hne
  · rw [hended, hpiece]
    exact .ends z (hz.imp_right And.left) hs (hdepth ▸ hzero)
  · exact hadds (.inr hc) (step_of_not_quote (isQuote_of_opensBracket hc))
  · exact hadds (.inl (hdepth ▸ Nat.sub_le _ _)) (step_of_not_quote (isQuote_of_closesBracket hc))
  · exact hadds (.inl (Nat.le_of_eq hdepth)) rfl

theorem steps_of_step (h : s.step c = some s') : Steps s c s' := by
  have hin {l : Literal} (hl : s.place = .within l) : s.literal = l := by rw [literal, hl]
  unfold step at h
  split at h
  · next hplace =>
    exact steps_of_code (z := []) h (hin hplace) ⟨rfl, by simp, rfl⟩ (.inl rfl)
  · next l _ hplace =>
    obtain rfl := Option.some.inj h
    refine .adds [c] (.inl rfl) rfl rfl (.inl (Nat.le_refl _)) ?_
    rw [hin hplace]
    rfl
  · next hplace =>
    have hcode : s.literal = .outside := by rw [literal, hplace]
    split at h
    · obtain rfl := Option.some.inj h
      exact .passes rfl rfl rfl hcode rfl
    · next hc =>
      rw [settle, hplace] at h
      exact steps_of_code (z := ['/']) h hcode ⟨rfl, rfl, rfl⟩ (.inr ⟨rfl, hc⟩)
  · next hplace =>
    have hcode : s.literal = .outside := by rw [literal, hplace]
    split at h
    · next hc =>
      obtain rfl := Option.some.inj h
      refine .adds [c] (.inl rfl) rfl rfl (.inl (Nat.le_refl _)) ?_
      rw [hcode, hc]
      rfl
    · obtain rfl := Option.some.inj h
      exact .passes rfl rfl rfl hcode hcode

def pieces (s : Reader) : List Text := s.settle.ended ++ [s.settle.piece]

theorem settle_ended (s : Reader) : s.settle.ended = s.ended := by
  unfold settle
  split <;> rfl

theorem settle_depth (s : Reader) : s.settle.depth = s.depth := by
  unfold settle
  split <;> rfl

theorem exists_settle_piece (s : Reader) : ∃ z, s.settle.piece = s.piece ++ z := by
  unfold settle
  split
  · exact ⟨['/'], rfl⟩
  · exact ⟨[], (List.append_nil _).symm⟩

theorem ended_prefix_of_run (h : s.run t = some s') : s.ended <+: s'.ended := by
  induction t generalizing s with
  | nil =>
    obtain rfl := Option.some.inj h
    exact List.prefix_rfl
  | cons c t ih =>
    obtain ⟨s₁, hstep, hrun⟩ := run_cons_eq_some_iff.1 h
    refine List.IsPrefix.trans ?_ (ih hrun)
    cases steps_of_step hstep with
    | passes hended => exact hended ▸ List.prefix_rfl
    | adds z hz hended => exact hended ▸ List.prefix_rfl
    | ends z => exact List.prefix_append _ _

theorem getElem?_pieces_of_ended {l : List Text} {p : Text} (hs : s.ended = l ++ [p])
    (h : s.run t = some s') : s'.pieces[l.length]? = some p := by
  obtain ⟨more, hmore⟩ := ended_prefix_of_run h
  rw [pieces, settle_ended, ← hmore, hs]
  simp

theorem exists_piece (h : s.run t = some s') :
    ∃ x, s'.pieces[s.ended.length]? = some (s.piece ++ x) := by
  induction t generalizing s with
  | nil =>
    obtain rfl := Option.some.inj h
    obtain ⟨z, hz⟩ := s.exists_settle_piece
    exact ⟨z, by simp [pieces, settle_ended, hz]⟩
  | cons c t ih =>
    obtain ⟨s₁, hstep, hrun⟩ := run_cons_eq_some_iff.1 h
    cases steps_of_step hstep with
    | passes hended hpiece =>
      rw [← hended, ← hpiece]
      exact ih hrun
    | adds z hz hended hpiece =>
      obtain ⟨x, hx⟩ := ih hrun
      rw [hended, hpiece, List.append_assoc] at hx
      exact ⟨z ++ x, hx⟩
    | ends z => exact ⟨z, getElem?_pieces_of_ended rfl hrun⟩

theorem close_eq_some_iff {es : List Text} : s.close = some es ↔
    s.settle.place = .within .outside ∧ s.depth = 0 ∧
      es = (s.ended ++ if isAllBlank s.settle.piece then [] else [s.settle.piece]).map trim := by
  unfold close
  dsimp only
  rw [settle_depth, settle_ended]
  split
  · next h =>
    have hboth : s.settle.place = .within .outside ∧ s.depth = 0 := by simpa using h
    rw [Option.some.injEq]
    exact ⟨fun heq => ⟨hboth.1, hboth.2, heq.symm⟩, fun hall => hall.2.2.symm⟩
  · next h =>
    refine iff_of_false (fun hnone => nomatch hnone) fun hall => h ?_
    simp [hall.1, hall.2.1]

theorem getElem?_of_close {es : List Text} (h : s.close = some es) {k : Nat} {p : Text}
    (hp : s.pieces[k]? = some p) (hfilled : isAllBlank p = false) : es[k]? = some (trim p) := by
  obtain ⟨-, -, rfl⟩ := close_eq_some_iff.1 h
  rw [pieces, settle_ended] at hp
  cases hlast : isAllBlank s.settle.piece with
  | false =>
    rw [if_neg Bool.false_ne_true, List.getElem?_map, hp]
    rfl
  | true =>
    by_cases hk : k < s.ended.length
    · rw [List.getElem?_append_left hk] at hp
      rw [if_pos rfl, List.append_nil, List.getElem?_map, hp]
      rfl
    · have hmem := List.mem_of_getElem? (List.getElem?_append_right (Nat.le_of_not_lt hk) ▸ hp)
      obtain rfl := List.mem_singleton.1 hmem
      rw [hlast] at hfilled
      cases hfilled

theorem filled_of_depth_pos (h : s.run t = some s')
    (hs : 0 < s.depth → isAllBlank s.piece = false) (hpos : 0 < s'.depth) :
    isAllBlank s'.piece = false := by
  induction t generalizing s with
  | nil =>
    obtain rfl := Option.some.inj h
    exact hs hpos
  | cons c t ih =>
    obtain ⟨s₁, hstep, hrun⟩ := run_cons_eq_some_iff.1 h
    refine ih hrun fun hdeep => ?_
    cases steps_of_step hstep with
    | passes _ hpiece hdepth =>
      rw [hpiece]
      exact hs (hdepth ▸ hdeep)
    | adds z hz _ hpiece hdepth =>
      rw [hpiece, isAllBlank, List.all_append, Bool.and_eq_false_iff]
      cases hdepth with
      | inl hle => exact .inl (hs (Nat.lt_of_lt_of_le hdeep hle))
      | inr hopen =>
        have hc : isBlank c = false := by
          rcases opensBracket_iff.1 hopen with rfl | rfl | rfl <;> decide
        right
        rcases hz with rfl | ⟨rfl, -⟩ <;> simp [hc]
    | ends => exact absurd hdeep (Nat.lt_irrefl 0)

theorem isProper_of_run (h : s.run t = some s') (hs : s.literal.IsProper) :
    s'.literal.IsProper := by
  induction t generalizing s with
  | nil =>
    obtain rfl := Option.some.inj h
    exact hs
  | cons c t ih =>
    obtain ⟨s₁, hstep, hrun⟩ := run_cons_eq_some_iff.1 h
    refine ih hrun ?_
    cases steps_of_step hstep with
    | passes _ _ _ _ hcode => exact hcode ▸ trivial
    | adds z hz _ _ _ hliteral =>
      rw [hliteral]
      exact List.foldlRecOn z _ hs fun l hl c _ => Literal.IsProper.step hl c
    | ends => trivial

theorem literal_of_settle (h : s.settle.place = .within .outside) : s.literal = .outside := by
  unfold settle at h
  split at h
  · next hplace => rw [literal, hplace]
  · rw [literal, h]

theorem settle_place (hcode : s.literal = .outside) (hcomment : s.place ≠ .comment) :
    s.settle.place = .within .outside := by
  unfold literal at hcode
  split at hcode
  · next l hplace => rw [settle, hplace, ← hcode, hplace]
  · next hplace =>
    cases hp : s.place with
    | within l => exact absurd hp (hplace l)
    | slash => rw [settle, hp]; rfl
    | comment => exact absurd hp hcomment

theorem step_settle (hc : c ≠ '/') : s.settle.step c = s.step c := by
  unfold settle
  split
  · next hplace => simp [step, hplace, hc, settle, add]
  · rfl

theorem step_of_close {es : List Text} (h : s.close = some es) (hc : closesBracket c = true) :
    s.step c = none := by
  obtain ⟨hplace, hdepth, -⟩ := close_eq_some_iff.1 h
  have hne : c ≠ '/' := by rintro rfl; exact absurd hc (by decide)
  have hcomma : c ≠ ',' := by rintro rfl; exact absurd hc (by decide)
  have hopen : opensBracket c = false := by
    rcases closesBracket_iff.1 hc with rfl | rfl | rfl <;> decide
  rw [← step_settle hne, step, hplace]
  simp [code, hne, hcomma, hopen, hc, settle_depth, hdepth]

/-- What blanks leave of the state of a reader. -/
structure Blanked (s s' : Reader) : Prop where
  ended : s'.ended = s.ended
  depth : s'.depth = s.depth
  piece : ∃ w, (∀ c ∈ w, isBlank c = true) ∧ s'.settle.piece = s.settle.piece ++ w
  code : s.settle.place = .within .outside → s'.settle.place = .within .outside
  literal : s.literal.IsProper → s.literal ≠ .outside → s'.literal ≠ .outside
  comment : s'.place = .comment → s' = s

theorem Blanked.refl (s : Reader) : Blanked s s :=
  ⟨rfl, rfl, ⟨[], by simp, (List.append_nil _).symm⟩, id, fun _ => id, fun _ => rfl⟩

structure IsPlain (c : Char) : Prop where
  slash : c ≠ '/'
  comma : c ≠ ','
  opening : opensBracket c = false
  closing : closesBracket c = false
  quote : Literal.isQuote c = false

theorem isPlain_of_isBlank (hc : isBlank c = true) : IsPlain c where
  slash := by rintro rfl; exact absurd hc (by decide)
  comma := by rintro rfl; exact absurd hc (by decide)
  opening := (isNeutral_of_isBlank hc).opening
  closing := (isNeutral_of_isBlank hc).closing
  quote := (isNeutral_of_isBlank hc).quote

theorem code_of_plain (hc : IsPlain c) : s.code c = some (s.add c (.within .outside)) := by
  simp [code, hc.slash, hc.comma, hc.opening, hc.closing, step_of_not_quote hc.quote]

theorem Blanked.of_add {r : Reader} (hr : r.ended = s.ended ∧ r.depth = s.depth)
    (hpiece : r.piece = s.settle.piece) (hcode : s.literal = .outside) (hc : isBlank c = true) :
    Blanked s (r.add c (.within .outside)) where
  ended := hr.1
  depth := hr.2
  piece := ⟨[c], by simpa using hc, by rw [← hpiece]; rfl⟩
  code := fun _ => rfl
  literal := fun _ hne => absurd hcode hne
  comment := fun h => absurd h (Place.within_ne_comment _)

theorem blanked_of_step (hc : isBlank c = true) (h : s.step c = some s') : Blanked s s' := by
  have hplain := isPlain_of_isBlank hc
  unfold step at h
  split at h
  · next hplace =>
    rw [code_of_plain hplain] at h
    obtain rfl := Option.some.inj h
    exact .of_add ⟨rfl, rfl⟩ (by rw [settle, hplace]) (by rw [Reader.literal, hplace]) hc
  · next l hne hplace =>
    obtain rfl := Option.some.inj h
    have hsettle : s.settle = s := by rw [settle, hplace]
    have hliteral : s.literal = l := by rw [Reader.literal, hplace]
    refine ⟨rfl, rfl, ⟨[c], by simpa using hc, by rw [hsettle]; rfl⟩, fun hcode => ?_,
      fun hproper _ => ?_, fun h => absurd h (Place.within_ne_comment _)⟩
    · rw [hsettle, hplace] at hcode
      exact absurd (Place.within.inj hcode) hne
    · rw [hliteral] at hproper
      show l.step c ≠ .outside
      cases l with
      | outside => exact absurd rfl hne
      | escaped q => simp [Literal.step]
      | inside q =>
        have hq : c ≠ q := by
          rintro rfl
          exact absurd hproper (by simp [Literal.IsProper, hplain.quote])
        simp [Literal.step, (isNeutral_of_isBlank hc).backslash, hq]
  · next hplace =>
    rw [if_neg hplain.slash, code_of_plain hplain] at h
    obtain rfl := Option.some.inj h
    exact .of_add ⟨s.settle_ended, s.settle_depth⟩ rfl (by rw [Reader.literal, hplace]) hc
  · next hplace =>
    have hsettle : s.settle = s := by rw [settle, hplace]
    split at h
    · obtain rfl := Option.some.inj h
      exact .of_add ⟨rfl, rfl⟩ (by rw [hsettle]) (by rw [Reader.literal, hplace]) hc
    · obtain rfl := Option.some.inj h
      exact .refl s

theorem blanked_of_run {w : Text} (hw : ∀ c ∈ w, isBlank c = true) (h : s.run w = some s') :
    Blanked s s' := by
  induction w generalizing s with
  | nil =>
    obtain rfl := Option.some.inj h
    exact .refl s
  | cons c w ih =>
    obtain ⟨s₁, hstep, hrun⟩ := run_cons_eq_some_iff.1 h
    have hfirst := blanked_of_step (hw c List.mem_cons_self) hstep
    have hrest := ih (fun d hd => hw d (.tail c hd)) hrun
    obtain ⟨v, hv, hpiece⟩ := hfirst.piece
    obtain ⟨u, hu, hpiece'⟩ := hrest.piece
    have hproper : s.literal.IsProper → s₁.literal.IsProper :=
      isProper_of_run (show s.run [c] = some s₁ by rw [run_cons, hstep]; rfl)
    refine ⟨hrest.ended.trans hfirst.ended, hrest.depth.trans hfirst.depth,
      ⟨v ++ u, List.forall_mem_append.2 ⟨hv, hu⟩, ?_⟩, fun hcode => hrest.code (hfirst.code hcode),
      fun hs hne => hrest.literal (hproper hs) (hfirst.literal hs hne), fun hcomment => ?_⟩
    · rw [hpiece', hpiece, List.append_assoc]
    · obtain rfl := hrest.comment hcomment
      exact hfirst.comment hcomment

/-- The reader behind a text that belongs to the element and ends outside of literals. -/
def grow (s : Reader) (t : Text) : Reader :=
  { s with place := .within .outside, piece := s.piece ++ t }

/-- Behind an open bracket, the text belongs to the element. -/
def Stays (x : Text) : Prop :=
  ∀ s : Reader, s.place = .within .outside → 0 < s.depth → s.run x = some (s.grow x)

theorem grow_grow (s : Reader) (t u : Text) : (s.grow t).grow u = s.grow (t ++ u) := by
  simp [grow]

theorem Stays.append {x y : Text} (hx : Stays x) (hy : Stays y) : Stays (x ++ y) := by
  intro s hplace hdepth
  rw [run_append_of_run (hx s hplace hdepth), hy (s.grow x) rfl hdepth, grow_grow]

theorem run_plain {x : Text} (hx : ∀ c ∈ x, IsPlain c) (hs : s.place = .within .outside) :
    s.run x = some (s.grow x) := by
  induction x generalizing s with
  | nil =>
    obtain ⟨place, depth, ended, piece⟩ := s
    obtain rfl : place = .within .outside := hs
    simp [grow]
  | cons c x ih =>
    have hc := hx c List.mem_cons_self
    have hstep : s.step c = some (s.grow [c]) := by
      rw [step, hs]
      exact code_of_plain hc
    rw [run_cons, hstep, Option.bind_some, ih (fun d hd => hx d (.tail c hd)) rfl, grow_grow]
    rfl

theorem run_inside {q : Char} {x : Text} (hx : ∀ c ∈ x, c ≠ '\\' ∧ c ≠ q)
    (hs : s.place = .within (.inside q)) :
    s.run x = some { s with piece := s.piece ++ x } := by
  induction x generalizing s with
  | nil => simp
  | cons c x ih =>
    obtain ⟨hescape, hquote⟩ := hx c List.mem_cons_self
    have hstep : s.step c = some (s.add c (.within (.inside q))) := by
      simp [step, hs, Literal.step, hescape, hquote]
    rw [run_cons, hstep, Option.bind_some, ih (fun d hd => hx d (.tail c hd)) rfl]
    simp [add, hs]

theorem run_quoted {q : Char} (hq : Literal.isQuote q = true) {x : Text}
    (hx : ∀ c ∈ x, c ≠ '\\' ∧ c ≠ q) (hs : s.place = .within .outside) :
    s.run (q :: (x ++ [q])) = some (s.grow (q :: (x ++ [q]))) := by
  have hopens : s.step q = some (s.add q (.within (.inside q))) := by
    rcases (by simpa [Literal.isQuote, or_assoc] using hq :
      q = doubleQuote ∨ q = singleQuote ∨ q = backtick) with rfl | rfl | rfl <;>
    · rw [step, hs]
      rfl
  have hescape : q ≠ '\\' := by rintro rfl; exact absurd hq (by decide)
  have hcloses : Literal.step (.inside q) q = .outside := by simp [Literal.step, hescape]
  rw [run_cons, hopens, Option.bind_some, run_append_of_run (run_inside hx rfl), run_cons]
  simp only [step, add, hcloses, Option.bind_some, run_nil, grow, List.append_assoc,
    List.singleton_append]
  rfl

theorem stays_comma : Stays [','] := by
  intro s hplace hdepth
  have hstep : s.step ',' = some (s.grow [',']) := by
    simp only [step, hplace, code, Nat.ne_of_gt hdepth]
    rfl
  rw [run_cons, hstep]
  rfl

theorem run_braced {x : Text} (hx : Stays x) (hs : s.place = .within .outside) :
    s.run ('\x7b' :: (x ++ ['\x7d'])) = some (s.grow ('\x7b' :: (x ++ ['\x7d']))) := by
  let inner : Reader := { s.grow ['\x7b'] with depth := s.depth + 1 }
  have hopens : s.step '\x7b' = some inner := by
    rw [step, hs]
    rfl
  have hcloses : (inner.grow x).step '\x7d' = some (s.grow ('\x7b' :: (x ++ ['\x7d']))) := by
    simp [step, grow, code, opensBracket, closesBracket, add, inner]
  rw [run_cons, hopens, Option.bind_some, run_append_of_run (hx inner rfl (Nat.succ_pos _)),
    run_cons, hcloses]
  rfl

theorem prefix_of_run {q : Char} {x r : Text} (hx : ∀ c ∈ x, c ≠ '\\' ∧ c ≠ q)
    (hs : s.place = .within (.inside q)) (h : s.run t = some s')
    (hpiece : s'.pieces[s.ended.length]? = some (s.piece ++ (x ++ r))) : x <+: t := by
  induction x generalizing s t with
  | nil => exact List.nil_prefix
  | cons c x ih =>
    obtain ⟨hescape, hquote⟩ := hx c List.mem_cons_self
    cases t with
    | nil =>
      obtain rfl := Option.some.inj h
      have hsettle : s.settle = s := by rw [settle, hs]
      simp [pieces, hsettle] at hpiece
    | cons d t =>
      obtain ⟨s₁, hstep, hrun⟩ := run_cons_eq_some_iff.1 h
      have hadd : s₁ = s.add d (.within (Literal.step (.inside q) d)) := by
        rw [step, hs] at hstep
        exact (Option.some.inj hstep).symm
      obtain ⟨y, hy⟩ := exists_piece hrun
      have hended : s₁.ended = s.ended := by rw [hadd]; rfl
      have hgrown : s₁.piece = s.piece ++ [d] := by rw [hadd]; rfl
      rw [hended, hpiece, hgrown, Option.some.injEq, List.append_assoc] at hy
      obtain ⟨rfl, -⟩ := List.cons.inj (List.append_cancel_left hy)
      refine List.cons_prefix_cons.2 ⟨rfl, ih (fun e he => hx e (.tail c he)) ?_ hrun ?_⟩
      · simp [hadd, add, Literal.step, hescape, hquote]
      · rw [hended, hgrown, hpiece, List.append_assoc]
        rfl

theorem place_of_literal {q : Char} (h : s.literal = .inside q) :
    s.place = .within (.inside q) := by
  unfold literal at h
  split at h
  · next hplace => rw [hplace, h]
  · exact nomatch h

theorem ne_slash {q : Char} {e x z : Text} {l : Literal} (he : e ≠ [])
    (hfold : e.foldl Literal.step l = .inside q) (hz : z = [] ∨ z = ['/'] ∧ l = .outside) :
    z ≠ e ++ x := by
  rintro rfl
  rcases hz with hz | ⟨hz, rfl⟩
  · exact he (List.append_eq_nil_iff.1 hz).1
  · cases e with
    | nil => exact he rfl
    | cons d e =>
      obtain ⟨rfl, hnil⟩ := List.cons.inj hz
      obtain rfl := (List.append_eq_nil_iff.1 hnil).1
      exact nomatch hfold

/-- Comments are left out between literals only, so that what stands in a literal of an element
stands in the text. -/
theorem infix_of_run {q : Char} {e x r : Text} (hx : ∀ c ∈ x, c ≠ '\\' ∧ c ≠ q)
    (he : e.foldl Literal.step s.literal = .inside q) (h : s.run t = some s')
    (hpiece : s'.pieces[s.ended.length]? = some (s.piece ++ (e ++ (x ++ r)))) : x <:+: t := by
  induction t generalizing s e with
  | nil =>
    cases e with
    | nil => exact (prefix_of_run hx (place_of_literal he) h hpiece).isInfix
    | cons d e =>
      obtain rfl := Option.some.inj h
      obtain ⟨z, hz, hsettle⟩ : ∃ z, (z = [] ∨ z = ['/'] ∧ s.literal = .outside) ∧
          s.settle.piece = s.piece ++ z := by
        unfold settle
        split
        · next hplace => exact ⟨['/'], .inr ⟨rfl, by rw [literal, hplace]⟩, rfl⟩
        · exact ⟨[], .inl rfl, (List.append_nil _).symm⟩
      have hall : s.piece ++ z = s.piece ++ (d :: e ++ (x ++ r)) := by
        simpa [pieces, settle_ended, hsettle] using hpiece
      exact absurd (List.append_cancel_left hall) (ne_slash (List.cons_ne_nil d e) he hz)
  | cons c t ih =>
    cases e with
    | nil => exact (prefix_of_run hx (place_of_literal he) h hpiece).isInfix
    | cons d e =>
      obtain ⟨s₁, hstep, hrun⟩ := run_cons_eq_some_iff.1 h
      refine List.infix_cons ?_
      cases steps_of_step hstep with
      | passes hended hgrown _ hcode hcode' =>
        refine ih (e := d :: e) (by rw [hcode', ← hcode]; exact he) hrun ?_
        rw [hended, hgrown]
        exact hpiece
      | ends z hz hcode =>
        have hended := getElem?_pieces_of_ended rfl hrun
        have hall : s.piece ++ z = s.piece ++ (d :: e ++ (x ++ r)) := by
          simpa [hpiece] using hended.symm
        exact absurd (List.append_cancel_left hall)
          (ne_slash (List.cons_ne_nil d e) he (hz.imp_right fun hz => ⟨hz, hcode⟩))
      | adds z hz hended hgrown _ hliteral =>
        obtain ⟨y, hy⟩ := exists_piece hrun
        rw [hended, hpiece, hgrown, Option.some.injEq, List.append_assoc] at hy
        have hsplit := List.append_cancel_left hy
        obtain ⟨f, hf⟩ : ∃ f, d :: e = z ++ f := by
          rcases hz with rfl | ⟨rfl, hcode⟩
          · obtain ⟨rfl, -⟩ := List.cons.inj hsplit
            exact ⟨e, rfl⟩
          · obtain ⟨rfl, hrest⟩ := List.cons.inj hsplit
            cases e with
            | nil =>
              rw [hcode] at he
              exact nomatch he
            | cons d' e =>
              obtain ⟨rfl, -⟩ := List.cons.inj hrest
              exact ⟨e, rfl⟩
        refine ih (e := f) ?_ hrun ?_
        · rw [hliteral, ← List.foldl_append, ← hf]
          exact he
        · rw [hended, hgrown, hpiece, hf]
          simp only [List.append_assoc]

end Reader

theorem eq_of_elements? {x y r u : Text} {es fs : List Text} (hx : elements? x = some es)
    (hy : elements? y = some fs) (h : x ++ ']' :: r = y ++ ']' :: u) : x = y := by
  have hnot {x k : Text} {es fs : List Text} (hx : elements? x = some es) :
      elements? (x ++ ']' :: k) ≠ some fs := fun hy => by
    obtain ⟨s, hrun, hclose⟩ := Reader.elements?_eq_some_iff.1 hx
    obtain ⟨s', hrun', -⟩ := Reader.elements?_eq_some_iff.1 hy
    rw [Reader.run_append_of_run hrun, Reader.run_cons, Reader.step_of_close hclose (by decide)]
      at hrun'
    exact nomatch hrun'
  rcases append_cons_cases h with ⟨heq, -⟩ | ⟨k, rfl, -⟩ | ⟨k, rfl, -⟩
  · exact heq
  · exact absurd hy (hnot hx)
  · exact absurd hx (hnot hy)

end IconCatalog.RemotePattern
