import IconCatalog.Proofs.Disk
import Mathlib.Data.List.Induction
/-!
Components of relative paths. A list of components is read back from the path that is made of it,
and folding the components of a relative path ends with its lexical reading, but for the steps up
that it starts with: of two such steps in a row the second one takes back the first.
-/
namespace IconCatalog
open Text

theorem Text.not_mem_of_mem_splitOn {c : Char} {t piece : Text} (h : piece ∈ t.splitOn c) :
    c ∉ piece := by
  induction t generalizing piece with
  | nil =>
    rw [List.splitOn_nil, List.mem_singleton] at h
    simp [h]
  | cons d t ih =>
    rw [List.splitOn_cons_eq_if_modifyHead] at h
    obtain ⟨first, rest, hsplit⟩ := List.exists_cons_of_ne_nil (List.splitOn_ne_nil c t)
    rw [hsplit] at h ih
    split at h
    · cases List.mem_cons.1 h with
      | inl hnil => simp [hnil]
      | inr hpiece => exact ih hpiece
    · next hd =>
      rw [List.modifyHead_cons, List.mem_cons] at h
      cases h with
      | inl hfirst =>
        have hne : c ≠ d := fun heq => hd (by simp [heq])
        rw [hfirst, List.mem_cons, not_or]
        exact ⟨hne, ih List.mem_cons_self⟩
      | inr hpiece => exact ih (List.mem_cons_of_mem first hpiece)

namespace Path

theorem isPart_of_mem_parts {p : Path} {part : Text} (h : part ∈ p.parts) : IsPart part := by
  obtain ⟨hmem, hfilled⟩ := List.mem_filter.1 h
  exact ⟨by simpa using hfilled, not_mem_of_mem_splitOn hmem⟩

theorem isAbsolute_join {p : Path} (hp : p.isAbsolute = false) {q : Path}
    (hq : q.isAbsolute = false) : (p.join q).isAbsolute = false := by
  unfold join
  rw [if_neg (by simp [hq])]
  simp only [isAbsolute, decide_eq_false_iff_not] at hp hq ⊢
  cases htext : p.text with
  | nil => simpa using hq
  | cons c t =>
    rw [htext] at hp
    split <;> simpa using hp

end Path

namespace Component
open Disk

/-- A component that leads somewhere from where one is. -/
inductive IsStep : Component → Prop where
  | parent : IsStep parent
  | name : IsFileName n → IsStep (name n)

theorem isStep_of_readPart? {part : Text} (hpart : IsPart part) {c : Component}
    (h : Path.readPart? false part = some c) : IsStep c := by
  unfold Path.readPart? at h
  split at h
  · exact nomatch h
  · next hcurrent =>
    split at h
    · obtain rfl := Option.some.inj h
      exact .parent
    · next hparent =>
      obtain rfl := Option.some.inj h
      exact .name ⟨hpart.filled, hpart.slash, hcurrent, hparent⟩

theorem IsStep.isPart {c : Component} (h : IsStep c) : IsPart c.path.text := by
  cases h with
  | parent => exact ⟨by decide, by decide⟩
  | name h => exact h.isPart

theorem IsStep.readPart? {c : Component} (h : IsStep c) (isFirst : Bool) :
    Path.readPart? isFirst c.path.text = some c := by
  cases h with
  | parent => rfl
  | name h => simp [Path.readPart?, path, h.current, h.parent]

end Component

namespace Path
open Component

theorem isStep_of_mem_components {p : Path} (hp : p.isAbsolute = false) {c : Component}
    (h : c ∈ p.components) : c = .current ∨ IsStep c := by
  have hmem {part : Text} (h : part ∈ p.parts) : IsPart part := isPart_of_mem_parts h
  unfold components at h
  rw [if_neg (by simp [hp])] at h
  cases hparts : p.parts with
  | nil => simp [hparts] at h
  | cons first rest =>
    rw [hparts] at h hmem
    simp only [List.mem_append, Option.mem_toList] at h
    cases h with
    | inl hfirst =>
      by_cases hcurrent : first = ['.']
      · left
        simpa [readPart?, hcurrent, eq_comm] using hfirst
      · have hread : readPart? false first = readPart? true first := by
          simp [readPart?, hcurrent]
        exact .inr (isStep_of_readPart? (hmem List.mem_cons_self) (hread.trans hfirst))
    | inr hrest =>
      obtain ⟨part, hpart, hread⟩ := List.mem_filterMap.1 hrest
      exact .inr (isStep_of_readPart? (hmem (List.mem_cons_of_mem first hpart)) hread)

theorem ofComponents_concat (cs : List Component) (c : Component) :
    ofComponents (cs ++ [c]) = (ofComponents cs).join c.path := by
  simp [ofComponents]

theorem isAbsolute_ofComponents {cs : List Component} (h : ∀ c ∈ cs, IsStep c) :
    (ofComponents cs).isAbsolute = false := by
  induction cs using List.reverseRecOn with
  | nil => rfl
  | append_singleton cs c ih =>
    have hc := (h c (by simp)).isPart
    rw [ofComponents_concat]
    exact isAbsolute_join (ih fun d hd => h d (List.mem_append_left _ hd)) (isAbsolute_part hc)

theorem parts_ofComponents {cs : List Component} (h : ∀ c ∈ cs, IsStep c) :
    (ofComponents cs).parts = cs.map (·.path.text) := by
  induction cs using List.reverseRecOn with
  | nil => rfl
  | append_singleton cs c ih =>
    rw [ofComponents_concat, parts_join _ (h c (by simp)).isPart,
      ih fun d hd => h d (List.mem_append_left _ hd), List.map_append, List.map_singleton]

theorem filterMap_readPart? {cs : List Component} (h : ∀ c ∈ cs, IsStep c) :
    (cs.map (·.path.text)).filterMap (readPart? false) = cs := by
  induction cs with
  | nil => rfl
  | cons c cs ih =>
    rw [List.map_cons, List.filterMap_cons_some ((h c List.mem_cons_self).readPart? false),
      ih fun d hd => h d (List.mem_cons_of_mem c hd)]

theorem components_ofComponents {cs : List Component} (h : ∀ c ∈ cs, IsStep c) :
    (ofComponents cs).components = cs := by
  unfold components
  rw [if_neg (by simp [isAbsolute_ofComponents h]), parts_ofComponents h]
  cases cs with
  | nil => rfl
  | cons c cs =>
    have hrest := filterMap_readPart? fun d hd => h d (List.mem_cons_of_mem c hd)
    simp [(h c List.mem_cons_self).readPart? true, hrest]

end Path

namespace Component
open Disk

/-- Reads a component on a stack, the last one first. A `..` takes back the name in front of it;
where there is none, it is kept. -/
def resolve (stack : List Component) : Component → List Component
  | current => stack
  | parent =>
    match stack with
    | name _ :: below => below
    | stack => parent :: stack
  | c => c :: stack

def lexical (cs : List Component) : List Component := (cs.foldl resolve []).reverse

/-- Names above some steps up, the last name first. -/
def stacked (ups : Nat) (names : List Text) : List Component :=
  names.map name ++ List.replicate ups parent

theorem resolve_parent_stacked (ups : Nat) :
    resolve (stacked ups []) parent = stacked (ups + 1) [] := by
  cases ups <;> rfl

theorem fold_parent_stacked (ups : Nat) :
    fold (stacked (ups % 2) []) parent = stacked ((ups + 1) % 2) [] := by
  cases Nat.mod_two_eq_zero_or_one ups with
  | inl heven =>
    have hodd : (ups + 1) % 2 = 1 := by omega
    rw [heven, hodd]
    rfl
  | inr hodd =>
    have heven : (ups + 1) % 2 = 0 := by omega
    rw [hodd, heven]
    rfl

/-- Reading and folding do the same to the names, and the steps up that folding leaves are those of
the reading, pairs of them taken out. -/
theorem exists_step (ups : Nat) {names : List Text} (hnames : ∀ n ∈ names, IsFileName n)
    {c : Component} (hc : c = current ∨ IsStep c) :
    ∃ ups' names', (∀ n ∈ names', IsFileName n) ∧
      resolve (stacked ups names) c = stacked ups' names' ∧
      fold (stacked (ups % 2) names) c = stacked (ups' % 2) names' := by
  rcases hc with rfl | hc
  · exact ⟨ups, names, hnames, rfl, rfl⟩
  cases hc with
  | name hn => exact ⟨ups, _ :: names, List.forall_mem_cons.2 ⟨hn, hnames⟩, rfl, rfl⟩
  | parent =>
    cases names with
    | nil => exact ⟨ups + 1, [], by simp, resolve_parent_stacked ups, fold_parent_stacked ups⟩
    | cons n names => exact ⟨ups, names, (List.forall_mem_cons.1 hnames).2, rfl, rfl⟩

theorem exists_run (ups : Nat) {names : List Text} (hnames : ∀ n ∈ names, IsFileName n)
    {cs : List Component} (hcs : ∀ c ∈ cs, c = current ∨ IsStep c) :
    ∃ ups' names', (∀ n ∈ names', IsFileName n) ∧
      cs.foldl resolve (stacked ups names) = stacked ups' names' ∧
      cs.foldl fold (stacked (ups % 2) names) = stacked (ups' % 2) names' := by
  induction cs generalizing ups names with
  | nil => exact ⟨ups, names, hnames, rfl, rfl⟩
  | cons c cs ih =>
    obtain ⟨hc, hcs⟩ := List.forall_mem_cons.1 hcs
    obtain ⟨ups', names', hnames', hresolve, hfold⟩ := exists_step ups hnames hc
    rw [List.foldl_cons, List.foldl_cons, hresolve, hfold]
    exact ih ups' hnames' hcs

theorem reverse_stacked (ups : Nat) (names : List Text) :
    (stacked ups names).reverse = List.replicate ups parent ++ names.reverse.map name := by
  rw [stacked, List.reverse_append, List.reverse_replicate, List.map_reverse]

end Component

namespace Path
open Component Disk

/-- A folded path keeps the names of its lexical reading. Of the steps up in front of them it keeps
one if their number is odd, and none if it is even. -/
theorem components_normalize {p : Path} (hp : p.isAbsolute = false) :
    ∃ ups names, lexical p.components = List.replicate ups .parent ++ List.map .name names ∧
      p.normalize.components = List.replicate (ups % 2) .parent ++ List.map .name names := by
  obtain ⟨ups, names, hnames, hresolve, hfold⟩ :=
    exists_run 0 (List.forall_mem_nil IsFileName) fun c hc => isStep_of_mem_components hp hc
  have hsteps : ∀ c ∈ (stacked (ups % 2) names).reverse, IsStep c := by
    intro c hc
    rw [List.mem_reverse, stacked, List.mem_append] at hc
    cases hc with
    | inl hname =>
      obtain ⟨n, hn, rfl⟩ := List.mem_map.1 hname
      exact .name (hnames n hn)
    | inr hparent =>
      rw [List.eq_of_mem_replicate hparent]
      exact .parent
  refine ⟨ups, names.reverse, ?_, ?_⟩
  · exact (congrArg List.reverse hresolve).trans (reverse_stacked ups names)
  · have hnormal : p.normalize = ofComponents (stacked (ups % 2) names).reverse := by
      rw [normalize, ← hfold]
      rfl
    rw [hnormal, components_ofComponents hsteps, reverse_stacked]

end Path
end IconCatalog
