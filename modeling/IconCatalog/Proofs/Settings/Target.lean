import IconCatalog.Proofs.Disk.Path
import IconCatalog.Settings.Basic
/-!
The target folder of a project, as seen from a relative root. It is the folder that root and
directory name when they are read from the left, as long as they lead up out of the start at most
once.
-/
namespace IconCatalog
open Text

namespace Settings
open Component

/-- The directory that is taken from the root: an explicit one, the stored one, or the default. -/
def chosen (s : Settings) (explicit : Option Path) : Path :=
  explicit.getD ⟨orDefault s.directory defaultDirectory⟩

theorem target_eq (s : Settings) (root : Path) (explicit : Option Path) :
    s.target root explicit = (root.join (s.chosen explicit)).normalize := rfl

/-- Below a relative root, the target keeps the names of the lexical reading in their order. Of the
steps up in front of them it keeps one or none, as their number is odd or even, so that it is the
lexical reading if and only if there is at most one. -/
theorem target_lexical_iff (s : Settings) (root : Path) (explicit : Option Path)
    (hroot : root.isAbsolute = false) (hdir : (s.chosen explicit).isAbsolute = false) :
    ∃ ups names,
      lexical (root.join (s.chosen explicit)).components =
        List.replicate ups .parent ++ List.map .name names ∧
      (s.target root explicit).components =
        List.replicate (ups % 2) .parent ++ List.map .name names ∧
      ((s.target root explicit).components = lexical (root.join (s.chosen explicit)).components ↔
        ups ≤ 1) := by
  obtain ⟨ups, names, hlexical, hfolded⟩ :=
    Path.components_normalize (Path.isAbsolute_join hroot hdir)
  refine ⟨ups, names, hlexical, hfolded, ?_⟩
  rw [target_eq, hfolded, hlexical, List.append_left_inj, List.replicate_inj,
    and_iff_left (.inr rfl)]
  omega

/-- A stored directory that leads up out of the root and down beside it. -/
theorem target_lexical_iff_beside :
    let s : Settings := ⟨some "../../lib/./x/../icons".toList, none, none⟩
    let root : Path := ⟨"./app".toList⟩
    let beside : List Component := [.parent, .name "lib".toList, .name "icons".toList]
    root.isAbsolute = false ∧ (s.chosen none).isAbsolute = false ∧
      s.target root none = ⟨"../lib/icons".toList⟩ ∧
      lexical (root.join (s.chosen none)).components = beside ∧
      (s.target root none).components = beside := by
  intro s root beside
  have hroot : root.isAbsolute = false := by decide
  have hdir : (s.chosen none).isAbsolute = false := by decide
  have hbeside : lexical (root.join (s.chosen none)).components = beside := by decide
  obtain ⟨ups, names, hlexical, -, hiff⟩ := target_lexical_iff s root none hroot hdir
  have hups : ups ≤ 1 := by
    have hcount := congrArg (List.count .parent) (hlexical.symm.trans hbeside)
    rw [List.count_append, List.count_replicate_self] at hcount
    have hone : beside.count .parent = 1 := by decide
    omega
  exact ⟨hroot, hdir, by decide, hbeside, (hiff.2 hups).trans hbeside⟩

/-- Two steps up out of the start take back each other, and the target is another folder. -/
theorem target_leaves_lexical :
    let root : Path := ⟨"project".toList⟩
    let dir : Path := ⟨"../../../icons".toList⟩
    root.isAbsolute = false ∧ dir.isAbsolute = false ∧
      lexical (root.join dir).components = [.parent, .parent, .name "icons".toList] ∧
      Settings.empty.target root (some dir) = ⟨"icons".toList⟩ ∧
      (Settings.empty.target root (some dir)).components = [.name "icons".toList] := by
  decide

end Settings
end IconCatalog
