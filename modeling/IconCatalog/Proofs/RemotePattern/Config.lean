import IconCatalog.RemotePattern.Config
import IconCatalog.Proofs.Disk.Growth
import IconCatalog.Proofs.RemotePattern.Patch
import IconCatalog.Proofs.Run
/-!
Listing a host in the configuration of a project. At most one file changes, the one that is found
and patched; whatever came of it, doing it again finds the host listed or leaves the file as it is.
What a patched file held is all in it still, around the pattern, unless a legacy host was replaced.
-/
namespace IconCatalog
open Text Disk

namespace RemotePattern
/-- What can come of making sure that a host is listed. -/
inductive Ensured (root : Path) (host : Text) (legacy : List Text) (d : Disk) :
    Except Failure Outcome → Disk → Prop where
  | failed (f : Failure) : Ensured root host legacy d (.error f) d
  | created {e : Disk} (hfind : find? root d = none)
      (hwrite : d.writeText (freshPath root) (freshConfig host) = .ok e) :
      Ensured root host legacy d (.ok (.created (freshPath root))) e
  | listed {path : Path} {t : Text} (hfind : find? root d = some path)
      (hread : d.readText path = .ok t) (hmentions : mentions host t = true) :
      Ensured root host legacy d (.ok (.alreadyListed path)) d
  | patched {path : Path} {t patched : Text} {e : Disk} (hfind : find? root d = some path)
      (hread : d.readText path = .ok t) (hmentions : mentions host t = false)
      (hpatch : patch? t host legacy = some patched) (hwrite : d.writeText path patched = .ok e) :
      Ensured root host legacy d (.ok (.patched path)) e
  | left {path : Path} {t : Text} (hfind : find? root d = some path)
      (hread : d.readText path = .ok t) (hmentions : mentions host t = false)
      (hpatch : patch? t host legacy = none) :
      Ensured root host legacy d (.ok (.left path (trim (entry host)))) d

variable {root path : Path} {host t : Text} {legacy : List Text} {d e : Disk} {p : Progress}

theorem exec_ensure_of_readText (hfind : find? root p.disk = some path)
    (hread : p.disk.readText path = .ok t) : Run.exec (ensure root host legacy) p =
      if mentions host t = true then (.ok (.alreadyListed path), p)
      else match patch? t host legacy with
        | some patched => Run.exec (do
            Run.change (·.writeText path patched)
            return .patched path) p
        | none => (.ok (.left path (trim (entry host))), p) := by
  have hlook : Run.exec (Run.look (·.readText path)) p = (.ok t, p) := by rw [Run.exec_look, hread]
  rw [ensure, Run.exec_bind_ok (Run.exec_disk p)]
  simp only [hfind]
  rw [Run.exec_bind_ok hlook]
  split
  · rfl
  · cases patch? t host legacy <;> rfl

theorem exec_ensure_of_mentions (hfind : find? root p.disk = some path)
    (hread : p.disk.readText path = .ok t) (hmentions : mentions host t = true) :
    Run.exec (ensure root host legacy) p = (.ok (.alreadyListed path), p) := by
  rw [exec_ensure_of_readText hfind hread, if_pos hmentions]

theorem ensured_exec (root : Path) (host : Text) (legacy : List Text) (p : Progress) :
    Ensured root host legacy p.disk (Run.exec (ensure root host legacy) p).1
      (Run.exec (ensure root host legacy) p).2.disk := by
  cases hfind : find? root p.disk with
  | none =>
    rw [ensure, Run.exec_bind_ok (Run.exec_disk p)]
    simp only [hfind]
    rw [Run.exec_bind, Run.exec_change_eq]
    cases hwrite : p.disk.writeText (freshPath root) (freshConfig host) with
    | ok e => exact .created hfind hwrite
    | error fault => exact .failed _
  | some path =>
    cases hread : p.disk.readText path with
    | error fault =>
      have hlook : Run.exec (Run.look (·.readText path)) p = (.error ⟨[], .disk fault⟩, p) := by
        rw [Run.exec_look, hread]
      rw [ensure, Run.exec_bind_ok (Run.exec_disk p)]
      simp only [hfind]
      rw [Run.exec_bind, hlook]
      exact .failed _
    | ok t =>
      rw [exec_ensure_of_readText hfind hread]
      by_cases hmentions : mentions host t = true
      · rw [if_pos hmentions]
        exact .listed hfind hread hmentions
      · rw [if_neg hmentions]
        have hnew : mentions host t = false := by simpa using hmentions
        cases hpatch : patch? t host legacy with
        | none => exact .left hfind hread hnew hpatch
        | some patched =>
          dsimp only
          rw [Run.exec_bind, Run.exec_change_eq]
          cases hwrite : p.disk.writeText path patched with
          | ok e => exact .patched hfind hread hnew hpatch hwrite
          | error fault => exact .failed _

theorem hasFile_put_file {place : Place} {old : ByteArray} (h : d.node? place = some (.file old))
    (new : ByteArray) : (d.put place (.file new)).hasFile = d.hasFile := by
  funext q
  unfold hasFile nodeAt?
  rw [locate_put_file h]
  cases d.locate q with
  | error fault => rfl
  | ok r =>
    simp only [Except.toOption, Option.bind_some, node?_put (ne_nil_of_file h)]
    by_cases hr : r = place
    · simp [hr, h]
    · rw [if_neg hr]

/-- The configuration that is found is patched, and nothing else changes. -/
structure Patches (root : Path) (host : Text) (legacy : List Text) (path : Path) (place : Place)
    (old patched : Text) (d e : Disk) : Prop where
  found : find? root d = some path
  read : d.readText path = .ok old
  locate : d.locate path = .ok place
  new : mentions host old = false
  patch : patch? old host legacy = some patched
  written : e = d.put place (.file (encode patched))

theorem Patches.exists_file {place : Place} {old patched : Text}
    (h : Patches root host legacy path place old patched d e) :
    ∃ content, d.node? place = some (.file content) ∧ decode? content = some old := by
  obtain ⟨place', content, hlocate, hnode, htext⟩ := readText_eq_ok_iff.1 h.read
  obtain rfl : place' = place := Except.ok.inj (hlocate.symm.trans h.locate)
  exact ⟨content, hnode, htext⟩

theorem Patches.find?_after {place : Place} {old patched : Text}
    (h : Patches root host legacy path place old patched d e) : find? root e = some path := by
  obtain ⟨content, hnode, -⟩ := h.exists_file
  rw [h.written, find?, hasFile_put_file hnode]
  exact h.found

theorem getLast_of_mem_paths {name : Text} (hname : name ∉ fileNames)
    (hpath : path ∈ fileNames.map root.child) {place : Place}
    (hlocate : d.locate path = .ok place) : place.getLast? ≠ some name := by
  obtain ⟨name', hmem, rfl⟩ := List.mem_map.1 hpath
  have hnames : ∀ name ∈ fileNames, IsFileName name := by decide
  rw [getLast_locate_child (hnames name' hmem) hlocate]
  rintro ⟨⟩
  exact hname hmem

theorem mem_of_find? (h : find? root d = some path) : path ∈ fileNames.map root.child :=
  List.mem_of_find?_eq_some h

theorem freshPath_mem (root : Path) : freshPath root ∈ fileNames.map root.child :=
  List.mem_cons_self

theorem not_hasFile_freshPath (h : find? root d = none) : d.hasFile (freshPath root) = false := by
  have hnone := List.find?_eq_none.1 h (freshPath root) (freshPath_mem root)
  simpa using hnone

namespace Ensured
variable {result : Except Failure Outcome}

theorem grows_or_patches (h : Ensured root host legacy d result e) : Grows d e ∨
    ∃ path place old patched, Patches root host legacy path place old patched d e := by
  cases h with
  | failed f => exact .inl (.refl d)
  | created hfind hwrite =>
    obtain ⟨place, hlocate, hnode, rfl⟩ := writeText_eq_ok_iff.1 hwrite
    refine .inl (grows_put ?_ _)
    cases hstands : d.node? place with
    | none => rfl
    | some node =>
      cases node with
      | folder => exact absurd hstands hnode
      | file content =>
        have hfile := hasFile_iff.2 ⟨place, content, hlocate, hstands⟩
        exact nomatch (not_hasFile_freshPath hfind).symm.trans hfile
  | listed => exact .inl (.refl d)
  | patched hfind hread hmentions hpatch hwrite =>
    obtain ⟨place, hlocate, hnode, rfl⟩ := writeText_eq_ok_iff.1 hwrite
    exact .inr ⟨_, place, _, _, hfind, hread, hlocate, hmentions, hpatch, rfl⟩
  | left => exact .inl (.refl d)

theorem spares {name : Text} (hname : name ∉ fileNames) (h : Ensured root host legacy d result e) :
    Spares name d e := by
  have hwritten {path : Path} {t : Text} {e : Disk} (hpath : path ∈ fileNames.map root.child)
      (hwrite : d.writeText path t = .ok e) : Spares name d e := by
    obtain ⟨place, hlocate, hnode, rfl⟩ := writeText_eq_ok_iff.1 hwrite
    exact spares_put_file hnode (getLast_of_mem_paths hname hpath hlocate) _
  cases h with
  | failed f => exact .refl name d
  | created hfind hwrite => exact hwritten (freshPath_mem root) hwrite
  | listed => exact .refl name d
  | patched hfind hread hmentions hpatch hwrite => exact hwritten (mem_of_find? hfind) hwrite
  | left => exact .refl name d

end Ensured

inductive Outcome.IsIdle : Outcome → Prop where
  | alreadyListed (path : Path) : IsIdle (.alreadyListed path)
  | left (path : Path) (snippet : Text) : IsIdle (.left path snippet)

/-- On a given disk a host is as good as listed: there is nothing more to do. -/
def IsSettled (root : Path) (host : Text) (legacy : List Text) (d : Disk) : Prop :=
  ∃ outcome : Outcome, outcome.IsIdle ∧
    ∀ p : Progress, p.disk = d → Run.exec (ensure root host legacy) p = (.ok outcome, p)

theorem isSettled_of_mentions (hfind : find? root d = some path) (hread : d.readText path = .ok t)
    (hmentions : mentions host t = true) : IsSettled root host legacy d := by
  refine ⟨_, .alreadyListed path, fun p hp => ?_⟩
  subst hp
  exact exec_ensure_of_mentions hfind hread hmentions

theorem isSettled_of_left (hfind : find? root d = some path) (hread : d.readText path = .ok t)
    (hmentions : mentions host t = false) (hpatch : patch? t host legacy = none) :
    IsSettled root host legacy d := by
  refine ⟨_, .left path (trim (entry host)), fun p hp => ?_⟩
  subst hp
  have hnew : ¬(mentions host t = true) := by simp [hmentions]
  rw [exec_ensure_of_readText hfind hread, if_neg hnew, hpatch]

theorem exec_ensure_of_written {patched : Text} (hfind : find? root d = some path)
    (hread : d.readText path = .ok t) (hmentions : mentions host t = false)
    (hpatch : patch? t host legacy = some patched) (hwrite : d.writeText path patched = .ok e)
    (hp : p.disk = e) : Run.exec (ensure root host legacy) p = (.ok (.alreadyListed path), p) := by
  obtain ⟨place, hlocate, -, hwritten⟩ := writeText_eq_ok_iff.1 hwrite
  have hpatches : Patches root host legacy path place t patched d e :=
    ⟨hfind, hread, hlocate, hmentions, hpatch, hwritten⟩
  subst hp
  exact exec_ensure_of_mentions hpatches.find?_after (readText_of_writeText hwrite)
    (mentions_of_patch? hpatch)

theorem Ensured.isSettled {outcome : Outcome} (h : Ensured root host legacy d (.ok outcome) e) :
    IsSettled root host legacy e := by
  cases h with
  | created hfind hwrite =>
    have hread := readText_of_writeText hwrite
    obtain ⟨place, content, hlocate, hnode, -⟩ := readText_eq_ok_iff.1 hread
    have hfile : e.hasFile (freshPath root) = true :=
      hasFile_iff.2 ⟨place, content, hlocate, hnode⟩
    exact isSettled_of_mentions (List.find?_cons_of_pos hfile) hread (mentions_freshConfig host)
  | listed hfind hread hmentions => exact isSettled_of_mentions hfind hread hmentions
  | patched hfind hread hmentions hpatch hwrite =>
    exact ⟨_, .alreadyListed _,
      fun p hp => exec_ensure_of_written hfind hread hmentions hpatch hwrite hp⟩
  | left hfind hread hmentions hpatch => exact isSettled_of_left hfind hread hmentions hpatch

/-- A configuration that is there is either patched or left as it is. If it is patched, its new text
mentions the host, so that doing it again changes nothing; and where the old text mentioned no
legacy host, the new one is the old one with the pattern in the place of some blanks, so that every
other character is kept in its place in the order. -/
theorem ensure_inserts {q : Progress} {outcome : Outcome} (hfind : find? root p.disk = some path)
    (hread : p.disk.readText path = .ok t)
    (hok : Run.exec (ensure root host legacy) p = (.ok outcome, q)) :
    match outcome with
    | .created _ => False
    | .alreadyListed found => found = path ∧ mentions host t = true ∧ q = p
    | .left found _ => found = path ∧ q = p
    | .patched found => found = path ∧ ∃ t', p.disk.writeText path t' = .ok q.disk ∧
        q.disk.readText path = .ok t' ∧ mentions host t' = true ∧
        (∀ r : Progress, r.disk = q.disk →
          Run.exec (ensure root host legacy) r = (.ok (.alreadyListed path), r)) ∧
        ((∀ old ∈ legacy, mentions old t = false) → (t.filter (!isBlank ·)).Sublist t' ∧
          ∃ a w b inserted, t = a ++ w ++ b ∧ (∀ c ∈ w, isBlank c = true) ∧
            t' = a ++ inserted ++ b ∧ entry host <:+: inserted) := by
  rw [exec_ensure_of_readText hfind hread] at hok
  by_cases hmentions : mentions host t = true
  · rw [if_pos hmentions] at hok
    obtain ⟨houtcome, rfl⟩ := Prod.mk.inj hok
    obtain rfl := Except.ok.inj houtcome
    exact ⟨rfl, hmentions, rfl⟩
  · rw [if_neg hmentions] at hok
    cases hpatch : patch? t host legacy with
    | none =>
      rw [hpatch] at hok
      obtain ⟨houtcome, rfl⟩ := Prod.mk.inj hok
      obtain rfl := Except.ok.inj houtcome
      exact ⟨rfl, rfl⟩
    | some patched =>
      rw [hpatch] at hok
      dsimp only at hok
      rw [Run.exec_bind, Run.exec_change_eq] at hok
      cases hwrite : p.disk.writeText path patched with
      | error fault =>
        rw [hwrite] at hok
        exact nomatch hok
      | ok e =>
        rw [hwrite] at hok
        obtain ⟨houtcome, rfl⟩ := Prod.mk.inj hok
        obtain rfl := Except.ok.inj houtcome
        have hnew : mentions host t = false := by simpa using hmentions
        refine ⟨rfl, patched, hwrite, readText_of_writeText hwrite, mentions_of_patch? hpatch,
          fun r hr => exec_ensure_of_written hfind hread hnew hpatch hwrite hr, fun hlegacy => ?_⟩
        obtain ⟨inserted, hentry, hinsertion⟩ := exists_isInsertion_patch? hpatch hlegacy
        obtain ⟨a, w, b, ht, hw, hpatched⟩ := id hinsertion
        exact ⟨hinsertion.sublist, a, w, b, inserted, ht, hw, hpatched, hentry⟩

def onePattern : Text := "remotePatterns: [\n  \x7b hostname: 'a.b' \x7d\n]".toList

def onePatternDisk : Disk where
  nodes := [(["p".toList], .folder),
    (["p".toList, "next.config.ts".toList], .file (encode onePattern))]
  home := []

theorem ensure_inserts_second_pattern :
    let root : Path := ⟨"p".toList⟩
    let path := root.child "next.config.ts".toList
    let host := "c.d".toList
    let legacy := ["e.f".toList]
    let p := Progress.start onePatternDisk
    find? root p.disk = some path ∧ p.disk.readText path = .ok onePattern ∧ ∃ q t',
      Run.exec (ensure root host legacy) p = (.ok (.patched path), q) ∧
      q.disk.readText path = .ok t' ∧ mentions host t' = true ∧
      Run.exec (ensure root host legacy) q = (.ok (.alreadyListed path), q) ∧
      (∀ old ∈ legacy, mentions old onePattern = false) ∧
      ∃ a w b inserted, onePattern = a ++ w ++ b ∧ (∀ c ∈ w, isBlank c = true) ∧
        t' = a ++ inserted ++ b ∧ entry host <:+: inserted := by
  intro root path host legacy p
  have hfind : find? root p.disk = some path := by decide +kernel
  have hread : p.disk.readText path = .ok onePattern := eq_ok_of_toOption (by decide +kernel)
  have hlegacy : ∀ old ∈ legacy, mentions old onePattern = false := by decide +kernel
  have hresult : (Run.exec (ensure root host legacy) p).1 = .ok (.patched path) :=
    eq_ok_of_toOption (by decide +kernel)
  have hok : Run.exec (ensure root host legacy) p =
      (.ok (.patched path), (Run.exec (ensure root host legacy) p).2) := Prod.ext hresult rfl
  obtain ⟨-, t', -, hread', hmentions, hagain, hinserted⟩ := ensure_inserts hfind hread hok
  exact ⟨hfind, hread, _, t', hok, hread', hmentions, hagain _ rfl, hlegacy,
    (hinserted hlegacy).2⟩

end RemotePattern
end IconCatalog
