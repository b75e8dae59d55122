import IconCatalog.Settings.Document
import IconCatalog.Proofs.Json.Value
import Mathlib.Data.List.Forall2
/-!
Written settings are read back. The members are read in the order in which they are written; what
is left out comes back as absent.
-/
namespace IconCatalog.Settings
open Text Json

structure Spells (member : List Piece × Value) (written : Text × Text) : Prop where
  key : textOf? member.1 = some written.1
  value : valueOf? member.2 = some (some written.2)

def atKey (first : Bool) (ms : List (List Piece × Value)) : Builder :=
  .inside [.object ms] (if first then .firstKey else .key)

theorem exists_readOn_member {w : Text} (hw : ∀ c ∈ w, isSpace c = true) (key value r : Text) :
    ∃ m, Spells m (key, value) ∧ ∀ first ms,
      readOn (atKey first ms) (w ++ renderMember key value ++ r) =
        readOn (.inside [.object (m :: ms)] .behind) r := by
  obtain ⟨vs, hvs, hvalue⟩ := exists_readOn_text (w := [' ']) (by simp [isSpace]) value r
  obtain ⟨ks, hks, hkey⟩ := exists_readOn_text (w := w ++ "  ".toList)
    (by simpa [or_imp, forall_and, isSpace] using hw) key
    (": ".toList ++ writeText value ++ r)
  refine ⟨(ks, .string vs), ⟨hks, by simp [valueOf?, hvs]⟩, fun first ms => ?_⟩
  have hstep : (atKey first ms).step (.string ks) = some (.inside [.member ms ks] .colon) := by
    cases first <;> rfl
  calc readOn (atKey first ms) (w ++ renderMember key value ++ r)
      = readOn (atKey first ms) (w ++ "  ".toList ++ writeText key ++
          (": ".toList ++ writeText value ++ r)) := by simp [renderMember]
    _ = readOn (.inside [.member ms ks] .colon) (": ".toList ++ writeText value ++ r) :=
        hkey hstep
    _ = readOn (.inside [.member ms ks] .value) ([' '] ++ writeText value ++ r) :=
        readOn_mark (w := []) (c := ':') (by simp) rfl rfl
    _ = readOn (.inside [.object ((ks, .string vs) :: ms)] .behind) r := hvalue rfl

def renderMembers (kvs : List (Text × Text)) : Text :=
  joined ",\n".toList (kvs.map fun (key, value) => renderMember key value)

theorem renderMembers_cons_cons (key value : Text) (kv : Text × Text) (kvs : List (Text × Text)) :
    renderMembers ((key, value) :: kv :: kvs) =
      renderMember key value ++ ',' :: '\n' :: renderMembers (kv :: kvs) := by
  simp [renderMembers, joined]

theorem exists_readOn_members (r : Text) : ∀ (kv : Text × Text) (kvs : List (Text × Text)),
    ∃ members, List.Forall₂ Spells members (kv :: kvs) ∧ ∀ first ms,
      readOn (atKey first ms) ('\n' :: renderMembers (kv :: kvs) ++ r) =
        readOn (.inside [.object (members.reverse ++ ms)] .behind) r
  | (key, value), [] => by
    obtain ⟨m, hm, hread⟩ := exists_readOn_member (w := ['\n']) (by simp [isSpace]) key value r
    exact ⟨[m], .cons hm .nil, fun first ms => hread first ms⟩
  | (key, value), kv :: kvs => by
    obtain ⟨members, hmembers, hrest⟩ := exists_readOn_members r kv kvs
    obtain ⟨m, hm, hread⟩ := exists_readOn_member (w := ['\n']) (by simp [isSpace]) key value
      (',' :: '\n' :: renderMembers (kv :: kvs) ++ r)
    refine ⟨m :: members, .cons hm hmembers, fun first ms => ?_⟩
    calc readOn (atKey first ms) ('\n' :: renderMembers ((key, value) :: kv :: kvs) ++ r)
        = readOn (atKey first ms)
            (['\n'] ++ renderMember key value ++
              ',' :: '\n' :: renderMembers (kv :: kvs) ++ r) := by
          simp [renderMembers_cons_cons]
      _ = readOn (.inside [.object (m :: ms)] .behind)
            (',' :: '\n' :: renderMembers (kv :: kvs) ++ r) := by simpa using hread first ms
      _ = readOn (atKey false (m :: ms)) ('\n' :: renderMembers (kv :: kvs) ++ r) :=
          readOn_mark (w := []) (by simp) rfl rfl
      _ = readOn (.inside [.object ((m :: members).reverse ++ ms)] .behind) r := by
          simpa using hrest false (m :: ms)

theorem exists_read?_render (s : Settings) : ∃ members, List.Forall₂ Spells members s.written ∧
    Value.read? (s.render ++ ['\n']) = some (.object members) := by
  have hopen (r : Text) : readOn (.inside [] .value) ('\x7b' :: r) = readOn (atKey true []) r :=
    readOn_mark (w := []) (by simp) rfl rfl
  have hend (v : Value) : readOn (.complete v) ['\n'] = some (.complete v) :=
    readOn_space (by simp [isSpace]) _
  unfold render
  split
  · next hnone =>
    rw [hnone]
    refine ⟨[], .nil, read?_of_readOn ?_⟩
    calc readOn (.inside [] .value) "\x7b\x7d\n".toList
        = readOn (atKey true []) ['\x7d', '\n'] := hopen _
      _ = readOn (.complete (.object [])) ['\n'] := readOn_mark (w := []) (by simp) rfl rfl
      _ = some (.complete (.object [])) := hend _
  · next ms hsome =>
    obtain ⟨kv, kvs, hms⟩ := List.exists_cons_of_ne_nil hsome
    rw [hms]
    obtain ⟨members, hmembers, hread⟩ := exists_readOn_members ['\n', '\x7d', '\n'] kv kvs
    refine ⟨members, hmembers, read?_of_readOn ?_⟩
    calc readOn (.inside [] .value)
          ("\x7b\n".toList ++ renderMembers (kv :: kvs) ++ "\n\x7d".toList ++ ['\n'])
        = readOn (.inside [] .value)
            ('\x7b' :: ('\n' :: renderMembers (kv :: kvs) ++ ['\n', '\x7d', '\n'])) := by simp
      _ = readOn (atKey true []) ('\n' :: renderMembers (kv :: kvs) ++ ['\n', '\x7d', '\n']) :=
          hopen _
      _ = readOn (.inside [.object members.reverse] .behind) ['\n', '\x7d', '\n'] := by
          simpa using hread true []
      _ = readOn (.complete (.object members.reverse.reverse)) ['\n'] :=
          readOn_mark (w := ['\n']) (by simp [isSpace]) rfl rfl
      _ = some (.complete (.object members)) := by rw [hend, List.reverse_reverse]

theorem written_eq (s : Settings) : s.written = (s.directory.map (directoryKey, ·)).toList ++
    ((s.imageBase.map (imageBaseKey, ·)).toList ++
      ((s.darkClass.map (darkClassKey, ·)).toList ++ [])) := by
  obtain ⟨directory, imageBase, darkClass⟩ := s
  cases directory <;> cases imageBase <;> cases darkClass <;> rfl

theorem exists_foldlM_add {key : Text} {stored : Option Text} {rest : List (Text × Text)}
    {g : Given} {f : Option (Option Text) → Given}
    (hadd : ∀ {m v}, Spells m (key, v) → g.add m = some (f (some (some v))))
    (hnone : f none = g) {members : List (List Piece × Value)}
    (h : List.Forall₂ Spells members ((stored.map (key, ·)).toList ++ rest)) :
    ∃ left, List.Forall₂ Spells left rest ∧
      members.foldlM Given.add g = left.foldlM Given.add (f (stored.map some)) := by
  cases stored with
  | none => exact ⟨members, h, by rw [Option.map_none, hnone]⟩
  | some v =>
    obtain ⟨m, left, hm, hleft, rfl⟩ := List.forall₂_cons_right_iff.1 h
    exact ⟨left, hleft, by simp [hadd hm]⟩

theorem foldlM_add_written {s : Settings} {members : List (List Piece × Value)}
    (h : List.Forall₂ Spells members s.written) :
    (members.foldlM Given.add .none).map Given.settings = some s := by
  have hkeys : imageBaseKey ≠ directoryKey ∧ darkClassKey ≠ directoryKey ∧
      darkClassKey ≠ imageBaseKey := by decide
  rw [written_eq] at h
  obtain ⟨left, hleft, hdirectory⟩ := exists_foldlM_add (g := .none)
    (f := fun v => ⟨v, none, none⟩) (fun hm => by simp [Given.add, Given.none, hm.key, hm.value])
    rfl h
  obtain ⟨left', hleft', himageBase⟩ := exists_foldlM_add
    (f := fun v => ⟨s.directory.map some, v, none⟩)
    (fun hm => by simp [Given.add, hm.key, hm.value, hkeys]) rfl hleft
  obtain ⟨last, hlast, hdarkClass⟩ := exists_foldlM_add
    (f := fun v => ⟨s.directory.map some, s.imageBase.map some, v⟩)
    (fun hm => by simp [Given.add, hm.key, hm.value, hkeys]) rfl hleft'
  obtain rfl := List.forall₂_nil_right_iff.1 hlast
  rw [hdirectory, himageBase, hdarkClass]
  obtain ⟨directory, imageBase, darkClass⟩ := s
  cases directory <;> cases imageBase <;> cases darkClass <;> rfl

/-- Settings come back from their text as they were. -/
theorem read?_render (s : Settings) : read? (s.render ++ ['\n']) = some s := by
  obtain ⟨members, hmembers, hread⟩ := exists_read?_render s
  rw [read?, hread, Option.bind_some, ofValue?]
  exact foldlM_add_written hmembers

end IconCatalog.Settings
