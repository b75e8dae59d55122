import IconCatalog.Disk.Basic
/-!
Files that are overwritten. Writing over a file leaves all places where they are and every other
file as it is, and files with different names stand at different places.
-/
namespace IconCatalog
open Text

structure IsPart (part : Text) : Prop where
  filled : part ≠ []
  slash : '/' ∉ part

namespace Path
variable {part : Text}

theorem isAbsolute_part (h : IsPart part) : (Path.mk part).isAbsolute = false := by
  simp only [isAbsolute, decide_eq_false_iff_not]
  exact fun hhead => h.slash (List.mem_of_head? hhead)

theorem exists_text_join (p : Path) (h : IsPart part) :
    ∃ x, (p.join ⟨part⟩).text = x ++ part ∧ (p.text = [] ∧ x = [] ∨
      p.text = x ∧ (∃ y, x = y ++ ['/']) ∨ p.text ≠ [] ∧ x = p.text ++ ['/']) := by
  unfold join
  simp only [isAbsolute_part h, Bool.false_eq_true, if_false]
  by_cases hempty : p.text = []
  · exact ⟨[], by simp [hempty], .inl ⟨hempty, rfl⟩⟩
  · by_cases hslash : p.text.getLast? = some '/'
    · obtain ⟨y, hy⟩ := List.getLast?_eq_some_iff.1 hslash
      exact ⟨p.text, by simp [hslash], .inr (.inl ⟨rfl, y, hy⟩)⟩
    · exact ⟨p.text ++ ['/'], by simp [hempty, hslash], .inr (.inr ⟨hempty, rfl⟩)⟩

theorem parts_join (p : Path) (h : IsPart part) :
    (p.join ⟨part⟩).parts = p.parts ++ [part] := by
  obtain ⟨x, htext, hx⟩ := exists_text_join p h
  have hsplit : part.splitOn '/' = [part] := List.splitOn_eq_singleton h.slash
  have hnil : ([] : Text).splitOn '/' = [[]] := List.splitOn_nil _
  unfold parts
  rw [htext]
  rcases hx with ⟨hp, rfl⟩ | ⟨hp, y, rfl⟩ | ⟨-, rfl⟩
  · simp [hsplit, hp, h.filled]
  · rw [hp, List.append_assoc, List.singleton_append, List.splitOn_append_cons_self,
      List.splitOn_append_cons_self, hsplit, hnil]
    simp [h.filled]
  · rw [List.append_assoc, List.singleton_append, List.splitOn_append_cons_self, hsplit]
    simp [h.filled]

end Path

namespace Disk
variable {d : Disk} {place : Place} {p q : Path} {t : Text}

theorem lookup_put (place q : Place) (node : Node) (nodes : List (Place × Node)) :
    ((place, node) :: nodes.filter (·.1 ≠ place)).lookup q =
      if q = place then some node else nodes.lookup q := by
  by_cases h : q = place
  · subst h
    simp
  · have hfilter : (nodes.filter (·.1 ≠ place)).lookup q = nodes.lookup q := by
      induction nodes with
      | nil => rfl
      | cons x nodes ih =>
        obtain ⟨r, n⟩ := x
        by_cases hr : r = place
        · subst hr
          have hq : (q == r) = false := by simpa using h
          simpa [List.lookup_cons, hq] using ih
        · rw [List.filter_cons_of_pos (by simpa using hr), List.lookup_cons, List.lookup_cons, ih]
    have hq : (q == place) = false := by simpa using h
    rw [List.lookup_cons, hfilter]
    simp [hq, h]

theorem node?_put (hplace : place ≠ []) (q : Place) (node : Node) :
    (d.put place node).node? q = if q = place then some node else d.node? q := by
  unfold node?
  by_cases hq : q = []
  · simp [hq, Ne.symm hplace]
  · simp only [if_neg hq]
    exact lookup_put place q node d.nodes

theorem ne_nil_of_file {content : ByteArray} (h : d.node? place = some (.file content)) :
    place ≠ [] := by
  rintro rfl
  exact absurd h (by simp [node?])

theorem follow_put_file {old new : ByteArray} (h : d.node? place = some (.file old))
    (from_ : Place) (parts : List Text) :
    (d.put place (.file new)).follow from_ parts = d.follow from_ parts := by
  induction parts generalizing from_ with
  | nil => rfl
  | cons part parts ih =>
    have hnode := node?_put (d := d) (ne_nil_of_file h) from_ (.file new)
    rw [follow, follow, hnode]
    by_cases hfrom : from_ = place
    · simp [hfrom, h]
    · simp only [if_neg hfrom, ih]

theorem locate_put_file {old : ByteArray} (h : d.node? place = some (.file old)) (new : ByteArray)
    (q : Path) : (d.put place (.file new)).locate q = d.locate q := by
  unfold locate
  simp only [follow_put_file h]
  rfl

theorem readText_eq_ok_iff : d.readText p = .ok t ↔ ∃ place content, d.locate p = .ok place ∧
    d.node? place = some (.file content) ∧ decode? content = some t := by
  unfold readText
  cases hlocate : d.locate p with
  | error fault => simp [bind, Except.bind]
  | ok place =>
    cases hnode : d.node? place with
    | none => simp [bind, Except.bind, hnode]
    | some node =>
      cases node with
      | folder => simp [bind, Except.bind, hnode]
      | file content =>
        cases hcontent : decode? content <;> simp [bind, Except.bind, hnode, hcontent]

theorem exists_writeText (h : d.readText p = .ok t) (u : Text) :
    ∃ e, d.writeText p u = .ok e ∧ e.readText p = .ok u ∧ (∀ q, e.locate q = d.locate q) ∧
      ∀ q, d.locate q ≠ d.locate p → e.readText q = d.readText q := by
  obtain ⟨place, content, hlocate, hnode, -⟩ := readText_eq_ok_iff.1 h
  have hsame := locate_put_file hnode (encode u)
  have hput := node?_put (d := d) (ne_nil_of_file hnode)
  refine ⟨d.put place (.file (encode u)), ?_, ?_, hsame, fun q hq => ?_⟩
  · simp [writeText, hlocate, hnode, bind, Except.bind]
  · refine readText_eq_ok_iff.2 ⟨place, encode u, by rw [hsame, hlocate], ?_, decode?_encode u⟩
    rw [hput, if_pos rfl]
  · unfold readText
    rw [hsame]
    cases hq' : d.locate q with
    | error fault => rfl
    | ok place' =>
      have hne : place' ≠ place := fun heq => hq (by rw [hq', hlocate, heq])
      simp [bind, Except.bind, hput, hne]

structure IsFileName (name : Text) : Prop where
  filled : name ≠ []
  slash : '/' ∉ name
  current : name ≠ ['.']
  parent : name ≠ ['.', '.']

instance (name : Text) : Decidable (IsFileName name) :=
  decidable_of_iff (name ≠ [] ∧ '/' ∉ name ∧ name ≠ ['.'] ∧ name ≠ ['.', '.'])
    ⟨fun h => ⟨h.1, h.2.1, h.2.2.1, h.2.2.2⟩, fun h => ⟨h.filled, h.slash, h.current, h.parent⟩⟩

theorem IsFileName.isPart {name : Text} (hname : IsFileName name) : IsPart name :=
  ⟨hname.filled, hname.slash⟩

theorem route_child (p : Path) {name : Text} (hname : IsFileName name) :
    route (p.child name) = p.parts ++ [name] := by
  have hlast : (p.child name).text.getLast? ≠ some '/' := by
    obtain ⟨x, htext, -⟩ := p.exists_text_join hname.isPart
    rw [Path.child, htext, List.getLast?_append]
    intro h
    cases hl : name.getLast? with
    | none => exact hname.filled (List.getLast?_eq_none_iff.1 hl)
    | some c =>
      rw [hl, Option.some_or] at h
      obtain rfl := Option.some.inj h
      exact hname.slash (List.mem_of_getLast? hl)
  rw [route, if_neg hlast, List.append_nil]
  exact p.parts_join hname.isPart

theorem getLast_follow {name : Text} (hname : IsFileName name) {ps : List Text} {from_ : Place}
    (h : d.follow from_ (ps ++ [name]) = .ok place) : place.getLast? = some name := by
  induction ps generalizing from_ with
  | nil =>
    rw [List.nil_append, follow] at h
    split at h
    · exact nomatch h
    · exact nomatch h
    · split at h
      · exact nomatch h
      · rw [follow, enter, if_neg hname.current, if_neg hname.parent] at h
        obtain rfl := Except.ok.inj h
        simp
  | cons part ps ih =>
    rw [List.cons_append, follow] at h
    split at h
    · exact nomatch h
    · exact nomatch h
    · split at h
      · exact nomatch h
      · exact ih h

theorem getLast_locate_child {name : Text} (hname : IsFileName name)
    (h : d.locate (p.child name) = .ok place) : place.getLast? = some name := by
  unfold locate at h
  split at h
  · exact nomatch h
  · rw [route_child p hname] at h
    exact getLast_follow hname h

theorem locate_child_ne {name other : Text} (hname : IsFileName name) (hother : IsFileName other)
    (hne : other ≠ name) (h : d.locate (p.child name) = .ok place) :
    d.locate (q.child other) ≠ d.locate (p.child name) := by
  intro hsame
  have hlast := getLast_locate_child hother (hsame.trans h)
  rw [getLast_locate_child hname h] at hlast
  exact hne (Option.some.inj hlast).symm

end Disk
end IconCatalog
