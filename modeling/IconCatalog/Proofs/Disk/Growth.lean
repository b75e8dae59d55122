import IconCatalog.Proofs.Disk
/-!
Disks on which nothing is taken away. Where a file or a folder stood, one of the same kind still
stands, so every path that led somewhere leads to the same place. A disk grows if files also keep
what they hold.
-/
namespace IconCatalog
open Text

namespace Disk

structure Keeps (d e : Disk) : Prop where
  home : e.home = d.home
  folder : ∀ place, d.node? place = some .folder → e.node? place = some .folder
  file : ∀ place content, d.node? place = some (.file content) →
    ∃ content', e.node? place = some (.file content')

structure Grows (d e : Disk) : Prop where
  home : e.home = d.home
  node : ∀ place node, d.node? place = some node → e.node? place = some node

variable {d e f : Disk} {place : Place} {p : Path}

theorem Grows.refl (d : Disk) : Grows d d := ⟨rfl, fun _ _ h => h⟩

theorem Grows.trans (h : Grows d e) (h' : Grows e f) : Grows d f :=
  ⟨h'.home.trans h.home, fun place node hnode => h'.node place node (h.node place node hnode)⟩

theorem Grows.keeps (h : Grows d e) : Keeps d e :=
  ⟨h.home, fun place => h.node place _, fun place content hfile => ⟨content, h.node place _ hfile⟩⟩

theorem nodeAt?_eq_some_iff {node : Node} : d.nodeAt? p = some node ↔
    ∃ place, d.locate p = .ok place ∧ d.node? place = some node := by
  unfold nodeAt?
  cases d.locate p <;> simp [Except.toOption]

theorem contains_iff : d.contains p = true ↔
    ∃ place, d.locate p = .ok place ∧ (d.node? place).isSome := by
  simp only [contains, Option.isSome_iff_exists, nodeAt?_eq_some_iff]
  exact ⟨fun ⟨node, place, hlocate, hnode⟩ => ⟨place, hlocate, node, hnode⟩,
    fun ⟨place, hlocate, node, hnode⟩ => ⟨node, place, hlocate, hnode⟩⟩

theorem contains_of_hasFolder (h : d.hasFolder p = true) : d.contains p = true := by
  rw [hasFolder] at h
  rw [contains]
  split at h <;> simp_all

theorem hasFolder_iff : d.hasFolder p = true ↔
    ∃ place, d.locate p = .ok place ∧ d.node? place = some .folder := by
  rw [← nodeAt?_eq_some_iff, hasFolder]
  split <;> simp_all

theorem hasFile_iff : d.hasFile p = true ↔
    ∃ place content, d.locate p = .ok place ∧ d.node? place = some (.file content) := by
  have hnode : d.hasFile p = true ↔ ∃ content, d.nodeAt? p = some (.file content) := by
    rw [hasFile]
    split <;> simp_all
  simp only [hnode, nodeAt?_eq_some_iff]
  exact exists_comm

namespace Keeps

theorem refl (d : Disk) : Keeps d d := (Grows.refl d).keeps

theorem trans (h : Keeps d e) (h' : Keeps e f) : Keeps d f where
  home := h'.home.trans h.home
  folder place hplace := h'.folder place (h.folder place hplace)
  file place content hplace := by
    obtain ⟨content', hfile⟩ := h.file place content hplace
    exact h'.file place content' hfile

theorem isSome_node? (h : Keeps d e) (hplace : (d.node? place).isSome) :
    (e.node? place).isSome := by
  obtain ⟨node, hnode⟩ := Option.isSome_iff_exists.1 hplace
  cases node with
  | folder => rw [h.folder place hnode]; rfl
  | file content =>
    obtain ⟨content', hfile⟩ := h.file place content hnode
    rw [hfile]
    rfl

theorem follow (h : Keeps d e) {from_ : Place} {parts : List Text}
    (hfollow : d.follow from_ parts = .ok place) : e.follow from_ parts = .ok place := by
  induction parts generalizing from_ with
  | nil => exact hfollow
  | cons part parts ih =>
    rw [Disk.follow] at hfollow ⊢
    split at hfollow
    · cases hfollow
    · cases hfollow
    · next hfolder =>
      rw [h.folder from_ hfolder]
      split at hfollow
      · cases hfollow
      · next hsize =>
        simp only [if_neg hsize]
        exact ih hfollow

theorem locate (h : Keeps d e) (hlocate : d.locate p = .ok place) : e.locate p = .ok place := by
  unfold Disk.locate at hlocate ⊢
  split at hlocate
  · exact nomatch hlocate
  · rw [h.home]
    exact h.follow hlocate

theorem hasFolder (h : Keeps d e) (hfolder : d.hasFolder p = true) : e.hasFolder p = true := by
  obtain ⟨place, hlocate, hnode⟩ := hasFolder_iff.1 hfolder
  exact hasFolder_iff.2 ⟨place, h.locate hlocate, h.folder place hnode⟩

theorem contains (h : Keeps d e) (hp : d.contains p = true) : e.contains p = true := by
  obtain ⟨place, hlocate, hnode⟩ := contains_iff.1 hp
  exact contains_iff.2 ⟨place, h.locate hlocate, h.isSome_node? hnode⟩

end Keeps

/-- Files of one name stay as they are, and no file of that name comes. -/
structure Spares (name : Text) (d e : Disk) : Prop where
  keeps : Keeps d e
  same : ∀ place content, place.getLast? = some name →
    (e.node? place = some (.file content) ↔ d.node? place = some (.file content))

theorem Spares.refl (name : Text) (d : Disk) : Spares name d d := ⟨.refl d, fun _ _ _ => .rfl⟩

theorem Spares.trans {name : Text} (h : Spares name d e) (h' : Spares name e f) : Spares name d f :=
  ⟨h.keeps.trans h'.keeps, fun place content hplace =>
    (h'.same place content hplace).trans (h.same place content hplace)⟩

/-- Everything stays as it is, and what comes is no file of one name. -/
structure GrowsBeside (name : Text) (d e : Disk) : Prop where
  grows : Grows d e
  spares : Spares name d e

theorem GrowsBeside.refl (name : Text) (d : Disk) : GrowsBeside name d d := ⟨.refl d, .refl name d⟩

theorem GrowsBeside.trans {name : Text} (d e f : Disk) (h : GrowsBeside name d e)
    (h' : GrowsBeside name e f) : GrowsBeside name d f :=
  ⟨h.grows.trans h'.grows, h.spares.trans h'.spares⟩

theorem ne_nil_of_node? (h : d.node? place ≠ some .folder) : place ≠ [] := by
  rintro rfl
  exact h (by simp [node?])

theorem keeps_put_file (h : d.node? place ≠ some .folder) (content : ByteArray) :
    Keeps d (d.put place (.file content)) where
  home := rfl
  folder q hq := by
    rw [node?_put (ne_nil_of_node? h), if_neg (by rintro rfl; exact h hq), hq]
  file q old hq := by
    rw [node?_put (ne_nil_of_node? h)]
    split
    · exact ⟨content, rfl⟩
    · exact ⟨old, hq⟩

theorem grows_put (h : d.node? place = none) (node : Node) : Grows d (d.put place node) where
  home := rfl
  node q old hq := by
    have hplace : place ≠ [] := ne_nil_of_node? (d := d) (by simp [h])
    rw [node?_put hplace, if_neg (by rintro rfl; exact nomatch h.symm.trans hq), hq]

theorem spares_put_file {name : Text} (h : d.node? place ≠ some .folder)
    (hname : place.getLast? ≠ some name) (content : ByteArray) :
    Spares name d (d.put place (.file content)) where
  keeps := keeps_put_file h content
  same q old hq := by
    rw [node?_put (ne_nil_of_node? h), if_neg (by rintro rfl; exact hname hq)]

theorem growsBeside_put_file {name : Text} (h : d.node? place = none)
    (hname : place.getLast? ≠ some name) (content : ByteArray) :
    GrowsBeside name d (d.put place (.file content)) :=
  ⟨grows_put h _, spares_put_file (by simp [h]) hname content⟩

theorem growsBeside_put_folder {name : Text} (h : d.node? place = none) :
    GrowsBeside name d (d.put place .folder) where
  grows := grows_put h .folder
  spares := by
    refine ⟨(grows_put h .folder).keeps, fun q old hq => ?_⟩
    have hfilled : place ≠ [] := ne_nil_of_node? (d := d) (by simp [h])
    rw [node?_put hfilled]
    by_cases hplace : q = place
    · simp [hplace, h]
    · rw [if_neg hplace]

theorem writeText_eq_ok_iff {t : Text} : d.writeText p t = .ok e ↔ ∃ place,
    d.locate p = .ok place ∧ d.node? place ≠ some .folder ∧ e = d.put place (.file (encode t)) := by
  unfold writeText
  cases d.locate p with
  | error fault => simp [bind, Except.bind]
  | ok place =>
    cases hnode : d.node? place with
    | none => simp [bind, Except.bind, hnode, eq_comm]
    | some node => cases node <;> simp [bind, Except.bind, hnode, eq_comm]

theorem follow_ne_taken (from_ : Place) (parts : List Text) :
    d.follow from_ parts ≠ .error .taken := by
  induction parts generalizing from_ with
  | nil => exact fun h => by cases h
  | cons part parts ih =>
    rw [follow]
    split
    · exact fun h => by cases h
    · exact fun h => by cases h
    · split
      · exact fun h => by cases h
      · exact ih _

theorem locate_ne_taken (d : Disk) (p : Path) : d.locate p ≠ .error .taken := by
  unfold locate pathFault?
  split
  · next fault h =>
    rintro ⟨⟩
    split at h
    · exact nomatch h
    · split at h
      · exact nomatch h
      · split at h <;> exact nomatch h
  · exact follow_ne_taken _ _

def create (d : Disk) (p : Path) (node : Node) : Except DiskFault Disk := do
  let place ← d.locate p
  match d.node? place with
  | some _ => .error .taken
  | none => .ok (d.put place node)

theorem createText_eq (d : Disk) (p : Path) (t : Text) :
    d.createText p t = d.create p (.file (encode t)) := rfl

theorem createFolder_eq (d : Disk) (p : Path) : d.createFolder p = d.create p .folder := rfl

theorem create_eq_ok_iff {node : Node} : d.create p node = .ok e ↔ ∃ place,
    d.locate p = .ok place ∧ d.node? place = none ∧ e = d.put place node := by
  unfold create
  cases d.locate p with
  | error fault => simp [bind, Except.bind]
  | ok place => cases hnode : d.node? place <;> simp [bind, Except.bind, hnode, eq_comm]

theorem create_eq_taken_iff {node : Node} :
    d.create p node = .error .taken ↔ d.contains p = true := by
  have hlocate := locate_ne_taken d p
  rw [contains_iff]
  unfold create
  cases h : d.locate p with
  | error fault => simpa [bind, Except.bind, h] using hlocate
  | ok place => cases hnode : d.node? place <;> simp [bind, Except.bind, hnode]

theorem nodeAt?_of_create {node : Node} (h : d.create p node = .ok e) :
    e.nodeAt? p = some node := by
  obtain ⟨place, hlocate, hnode, rfl⟩ := create_eq_ok_iff.1 h
  have hplace : place ≠ [] := ne_nil_of_node? (d := d) (by simp [hnode])
  refine nodeAt?_eq_some_iff.2 ⟨place, (grows_put hnode node).keeps.locate hlocate, ?_⟩
  rw [node?_put hplace, if_pos rfl]

theorem readText_of_writeText {t : Text} (h : d.writeText p t = .ok e) : e.readText p = .ok t := by
  obtain ⟨place, hlocate, hnode, rfl⟩ := writeText_eq_ok_iff.1 h
  refine readText_eq_ok_iff.2 ⟨place, encode t, ?_, ?_, decode?_encode t⟩
  · exact (keeps_put_file hnode _).locate hlocate
  · rw [node?_put (ne_nil_of_node? hnode), if_pos rfl]

end Disk
end IconCatalog
