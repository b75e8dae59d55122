import IconCatalog.Proofs.Disk.Growth
import Mathlib.Data.List.Induction
/-!
Files whose folder may come later. A file that is found on a disk that grew was found before, if its
folder was there or if the way to it goes only down.
-/
namespace IconCatalog
open Text

namespace Disk
variable {d e : Disk} {place from_ : Place} {ps : List Text} {name : Text} {root : Path}

/-- Whatever stands at a place stands in a folder. -/
def IsTree (d : Disk) : Prop :=
  ∀ place, (d.node? place).isSome → d.node? place.dropLast = some .folder

theorem IsTree.folder_of_prefix (h : d.IsTree) {q : Place} (hq : d.node? q = some .folder)
    (hplace : place <+: q) : d.node? place = some .folder := by
  induction q using List.reverseRecOn with
  | nil => rwa [List.prefix_nil.1 hplace]
  | append_singleton q part ih =>
    cases List.prefix_concat_iff.1 hplace with
    | inl heq => rwa [heq]
    | inr hplace =>
      have hfolder := h (q ++ [part]) (by rw [hq]; rfl)
      rw [List.dropLast_concat] at hfolder
      exact ih hfolder hplace

theorem follow_append (ps qs : List Text) : d.follow from_ (ps ++ qs) =
    (d.follow from_ ps).bind (d.follow · qs) := by
  induction ps generalizing from_ with
  | nil => rfl
  | cons part ps ih =>
    rw [List.cons_append, follow, follow]
    cases d.node? from_ with
    | none => rfl
    | some node =>
      cases node with
      | file content => rfl
      | folder =>
        dsimp only
        split
        · rfl
        · exact ih

theorem follow_singleton_eq_ok_iff {part : Text} : d.follow from_ [part] = .ok place ↔
    d.node? from_ = some .folder ∧ byteSize part ≤ maxNameSize ∧ place = enter from_ part := by
  rw [follow]
  cases d.node? from_ with
  | none => simp
  | some node =>
    cases node with
    | file content => simp
    | folder =>
      by_cases hsize : byteSize part ≤ maxNameSize
      · simp [follow, Nat.not_lt.2 hsize, hsize, eq_comm]
      · simp [Nat.not_le.1 hsize, hsize]

theorem follow_concat_eq_ok_iff {part : Text} : d.follow from_ (ps ++ [part]) = .ok place ↔
    ∃ q, d.follow from_ ps = .ok q ∧ d.node? q = some .folder ∧ byteSize part ≤ maxNameSize ∧
      place = enter q part := by
  rw [follow_append]
  cases d.follow from_ ps with
  | error fault => simp [Except.bind]
  | ok q => simp [Except.bind, follow_singleton_eq_ok_iff]

def start (d : Disk) (p : Path) : Place := if p.isAbsolute then [] else d.home

theorem start_child (hname : IsFileName name) (hroot : root.text ≠ []) (d : Disk) :
    d.start (root.child name) = d.start root := by
  obtain ⟨x, htext, hx⟩ := root.exists_text_join hname.isPart
  have hhead : (root.child name).text.head? = root.text.head? := by
    rw [Path.child, htext]
    rcases hx with ⟨hempty, -⟩ | ⟨rfl, -⟩ | ⟨-, rfl⟩
    · exact absurd hempty hroot
    · rw [List.head?_append, List.head?_eq_some_head hroot, Option.some_or]
    · rw [List.append_assoc, List.head?_append, List.head?_eq_some_head hroot, Option.some_or]
  unfold start Path.isAbsolute
  rw [hhead]

theorem locate_child_eq_ok_iff (hname : IsFileName name) :
    d.locate (root.child name) = .ok place ↔ pathFault? (root.child name) = none ∧
      ∃ q, d.follow (d.start (root.child name)) root.parts = .ok q ∧ d.node? q = some .folder ∧
        byteSize name ≤ maxNameSize ∧ place = q ++ [name] := by
  have henter (q : Place) : enter q name = q ++ [name] := by
    rw [enter, if_neg hname.current, if_neg hname.parent]
  unfold locate
  cases pathFault? (root.child name) with
  | some fault => simp
  | none => simp only [route_child root hname, follow_concat_eq_ok_iff, henter, start, true_and]

theorem exists_follow_parts (h : d.hasFolder root = true) :
    root.text ≠ [] ∧
      ∃ q, d.follow (d.start root) root.parts = .ok q ∧ d.node? q = some .folder := by
  obtain ⟨place, hlocate, hfolder⟩ := hasFolder_iff.1 h
  unfold locate at hlocate
  split at hlocate
  · exact nomatch hlocate
  · next hfault =>
    constructor
    · intro hempty
      simp [pathFault?, hempty] at hfault
    · rw [← start, route] at hlocate
      by_cases hslash : root.text.getLast? = some '/'
      · rw [if_pos hslash] at hlocate
        obtain ⟨q, hq, hnode, -⟩ := follow_concat_eq_ok_iff.1 hlocate
        exact ⟨q, hq, hnode⟩
      · rw [if_neg hslash, List.append_nil] at hlocate
        exact ⟨place, hlocate, hfolder⟩

theorem prefix_of_follow (hps : ['.', '.'] ∉ ps) (h : d.follow from_ ps = .ok place) :
    from_ <+: place := by
  induction ps generalizing from_ with
  | nil =>
    obtain rfl := Except.ok.inj h
    exact List.prefix_rfl
  | cons part ps ih =>
    rw [List.mem_cons, not_or] at hps
    rw [follow] at h
    split at h
    · cases h
    · cases h
    · split at h
      · cases h
      · refine List.IsPrefix.trans ?_ (ih hps.2 h)
        unfold enter
        split
        · exact List.prefix_rfl
        · rw [if_neg (Ne.symm hps.1)]
          exact List.prefix_append from_ [part]

theorem IsTree.follow (hd : d.IsTree) (hps : ['.', '.'] ∉ ps)
    (h : e.follow from_ ps = .ok place) (hplace : d.node? place = some .folder) :
    d.follow from_ ps = .ok place := by
  have hfrom := hd.folder_of_prefix hplace (prefix_of_follow hps h)
  induction ps generalizing from_ with
  | nil => exact h
  | cons part ps ih =>
    rw [Disk.follow] at h ⊢
    rw [hfrom]
    split at h
    · cases h
    · cases h
    · split at h
      · cases h
      · next hsize =>
        have hrest := fun hmem => hps (List.mem_cons_of_mem part hmem)
        simp only [if_neg hsize]
        exact ih hrest h (hd.folder_of_prefix hplace (prefix_of_follow hrest h))

/-- The root of a project is a folder, or it may be missing if the way to it only goes down. A way
back out of a missing folder is left out: once that folder comes, files are found behind it that
were there all along. -/
def HasRoot (d : Disk) (root : Path) : Prop :=
  d.hasFolder root = true ∨ d.IsTree ∧ ['.', '.'] ∉ root.parts

theorem locate_child_of_keeps (hname : IsFileName name) (hroot : d.HasRoot root) (h : Keeps d e)
    (hlocate : e.locate (root.child name) = .ok place) (hplace : (d.node? place).isSome) :
    d.locate (root.child name) = .ok place := by
  obtain ⟨hfault, q, hq, hfolder, hsize, rfl⟩ := (locate_child_eq_ok_iff hname).1 hlocate
  have hstart (p : Path) : e.start p = d.start p := by rw [start, start, h.home]
  rw [hstart] at hq
  cases hroot with
  | inl hroot =>
    obtain ⟨hfilled, r, hr, hnode⟩ := exists_follow_parts hroot
    rw [← start_child hname hfilled] at hr
    obtain rfl : r = q := Except.ok.inj ((h.follow hr).symm.trans hq)
    exact (locate_child_eq_ok_iff hname).2 ⟨hfault, r, hr, hnode, hsize, rfl⟩
  | inr hroot =>
    obtain ⟨htree, hparts⟩ := hroot
    have hnode := htree _ hplace
    rw [List.dropLast_concat] at hnode
    exact (locate_child_eq_ok_iff hname).2
      ⟨hfault, q, htree.follow hparts hq hnode, hnode, hsize, rfl⟩

theorem Spares.readText_eq_ok_iff {t : Text} (h : Spares name d e) (hname : IsFileName name)
    (hroot : d.HasRoot root) :
    e.readText (root.child name) = .ok t ↔ d.readText (root.child name) = .ok t := by
  rw [Disk.readText_eq_ok_iff, Disk.readText_eq_ok_iff]
  constructor
  · rintro ⟨place, content, hlocate, hnode, htext⟩
    have hold := (h.same place content (getLast_locate_child hname hlocate)).1 hnode
    exact ⟨place, content, locate_child_of_keeps hname hroot h.keeps hlocate (by rw [hold]; rfl),
      hold, htext⟩
  · rintro ⟨place, content, hlocate, hnode, htext⟩
    exact ⟨place, content, h.keeps.locate hlocate,
      (h.same place content (getLast_locate_child hname hlocate)).2 hnode, htext⟩

end Disk
end IconCatalog
