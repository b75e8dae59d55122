import IconCatalog.Command.Init
import IconCatalog.Proofs.Disk.Tree
import IconCatalog.Proofs.RemotePattern.Config
import IconCatalog.Proofs.Seed.Plant
import IconCatalog.Proofs.Settings.Store
/-!
Preparing a project. No file is overwritten but the configuration that is patched, and a project
that was prepared needs no more preparation.
-/
namespace IconCatalog
open Text Disk

namespace Command
variable {root target : Path} {dir : Option Path} {framework : Seed.Framework} {s : Settings}
  {p q : Progress} {d : Disk} {reader : WebAddress.Reader}

def seedOptions (framework : Seed.Framework) (s : Settings) : Seed.Options :=
  ⟨framework, s.imageBaseOrDefault, s.darkClassOrDefault⟩

def openingLine : Text := "\n".toList ++ arrow ++ " Initializing crypto icons...\n".toList

def plantedLine (root target : Path) : Text :=
  mark ++ " ".toList ++ shown root target ++
    " is already initialized; existing files are kept".toList

def sayIsPlanted (root target : Path) : Run Unit := do
  if Seed.isPlanted target (← Run.disk) then Run.say (plantedLine root target)

def createdLine (root path : Path) : Text :=
  "  ".toList ++ check ++ " Created ".toList ++ shown root path

def keptLine (root path : Path) : Text := "  ".toList ++ dot ++ " Kept ".toList ++ shown root path

def sayPlanted (root : Path) (planted : Seed.Planted) : Run Unit := do
  planted.created.foldlM (fun _ path => Run.say (createdLine root path)) PUnit.unit
  planted.kept.foldlM (fun _ path => Run.say (keptLine root path)) PUnit.unit

def imageHost? (reader : WebAddress.Reader) (framework : Seed.Framework) (s : Settings) :
    Option Text :=
  if framework = .next then WebAddress.remoteHost? reader s.imageBaseOrDefault else none

def permitImages (reader : WebAddress.Reader) (root : Path) (framework : Seed.Framework)
    (s : Settings) : Run Unit :=
  match imageHost? reader framework s with
  | some host => permitHost root host []
  | none => return

def prepareTarget (reader : WebAddress.Reader) (root target : Path) (framework : Seed.Framework)
    (s : Settings) : Run Unit := do
  let planted ← Run.within (.seeding target) (Seed.plant target (seedOptions framework s))
  sayPlanted root planted
  permitImages reader root framework s
  sayNextSteps (shown root target)

theorem prepare_eq (reader : WebAddress.Reader) (root : Path) (dir : Option Path)
    (framework : Seed.Framework) :
    prepare reader root dir framework = (do
      Run.say openingLine
      let s ← Settings.load root
      sayIsPlanted root (s.target root dir)
      prepareTarget reader root (s.target root dir) framework s) := by
  have hplanted (s : Settings) (rest : Run Unit) : (do
      let d ← Run.disk
      if Seed.isPlanted (s.target root dir) d then
        Run.say (plantedLine root (s.target root dir))
        rest
      else rest) = (do sayIsPlanted root (s.target root dir); rest) := by
    rw [sayIsPlanted, bind_assoc]
    congr 1
    funext d
    split <;> simp
  unfold prepare
  simp only [Run.forIn_eq_foldlM]
  refine bind_congr fun _ => bind_congr fun s => (hplanted s _).trans ?_
  refine bind_congr fun _ => bind_congr fun planted => ?_
  rw [sayPlanted, bind_assoc]
  refine bind_congr fun _ => bind_congr fun _ => ?_
  rw [permitImages, imageHost?]
  split
  · cases WebAddress.remoteHost? reader s.imageBaseOrDefault <;> simp
  · simp

theorem exists_exec_sayIsPlanted (root target : Path) (p : Progress) :
    ∃ printed, Run.exec (sayIsPlanted root target) p = (.ok (), { p with printed := printed }) ∧
      (Seed.isPlanted target p.disk = true →
        printed = p.printed ++ (plantedLine root target ++ ['\n'])) := by
  rw [sayIsPlanted, Run.exec_bind_ok (Run.exec_disk p)]
  by_cases h : Seed.isPlanted target p.disk = true
  · rw [if_pos h]
    exact ⟨_, Run.Says.line _ p, fun _ => rfl⟩
  · rw [if_neg h]
    exact ⟨p.printed, rfl, fun hplanted => absurd hplanted h⟩

theorem says_sayPlanted (root : Path) (planted : Seed.Planted) : (sayPlanted root planted).Says
    ((planted.created.flatMap fun path => createdLine root path ++ ['\n']) ++
      planted.kept.flatMap fun path => keptLine root path ++ ['\n']) :=
  (Run.Says.foldlM (createdLine root) planted.created).followed_by
    (.foldlM (keptLine root) planted.kept)

theorem exists_says_sayNextSteps (importPath : Text) :
    ∃ text, (sayNextSteps importPath).Says text :=
  ⟨_, (Run.Says.line _).followed_by <| (Run.Says.line _).followed_by <|
    (Run.Says.line _).followed_by <| (Run.Says.line _).followed_by <|
    (Run.Says.line _).followed_by <| (Run.Says.line _).followed_by (.line _)⟩

theorem exists_says_sayOutcome (root : Path) (outcome : RemotePattern.Outcome) :
    ∃ text, (sayOutcome root outcome).Says text := by
  cases outcome with
  | created path => exact ⟨_, .line _⟩
  | alreadyListed path => exact ⟨_, .line _⟩
  | patched path => exact ⟨_, .line _⟩
  | left path snippet => exact ⟨_, (Run.Says.line _).followed_by (.line _)⟩

/-- What comes of listing the host of the images, if there is one to list. -/
inductive Permitted (root : Path) : Option Text → Disk → Except Failure Unit → Disk → Prop where
  | idle (d : Disk) : Permitted root none d (.ok ()) d
  | listed {host : Text} {d e : Disk} {outcome : Except Failure RemotePattern.Outcome}
      {result : Except Failure Unit} (h : RemotePattern.Ensured root host [] d outcome e)
      (hresult : result.isOk = outcome.isOk) : Permitted root (some host) d result e

theorem permitted_exec (reader : WebAddress.Reader) (root : Path) (framework : Seed.Framework)
    (s : Settings) (p : Progress) :
    Permitted root (imageHost? reader framework s) p.disk
      (Run.exec (permitImages reader root framework s) p).1
      (Run.exec (permitImages reader root framework s) p).2.disk := by
  unfold permitImages
  cases imageHost? reader framework s with
  | none => exact .idle _
  | some host =>
    dsimp only
    rw [permitHost, Run.exec_bind]
    have hensured := RemotePattern.ensured_exec root host [] p
    cases h : Run.exec (RemotePattern.ensure root host []) p with
    | mk result q =>
      rw [h] at hensured
      cases result with
      | ok outcome =>
        obtain ⟨text, hprints⟩ := exists_says_sayOutcome root outcome
        rw [Run.exec_within h]
        dsimp only
        rw [hprints q]
        exact .listed hensured rfl
      | error f =>
        rw [Run.exec_within_error h]
        exact .listed hensured rfl

theorem exists_exec_prepare (hs : (Settings.onDisk root d).1 = s) (dir : Option Path)
    (framework : Seed.Framework) : ∃ notices printed,
      Run.exec (prepare reader root dir framework) (.start d) =
        Run.exec (prepareTarget reader root (s.target root dir) framework s)
          ⟨d, notices, printed⟩ ∧
      (Seed.isPlanted (s.target root dir) d = true →
        printed = openingLine ++ ['\n'] ++ (plantedLine root (s.target root dir) ++ ['\n'])) := by
  have hopening : Run.exec (Run.say openingLine) (.start d) =
      (.ok (), ⟨d, [], openingLine ++ ['\n']⟩) := Run.Says.line openingLine _
  obtain ⟨notices, hload⟩ := Settings.exists_exec_load root ⟨d, [], openingLine ++ ['\n']⟩
  obtain ⟨printed, hplanted, hprinted⟩ :=
    exists_exec_sayIsPlanted root (s.target root dir) ⟨d, notices, openingLine ++ ['\n']⟩
  refine ⟨notices, printed, ?_, hprinted⟩
  dsimp only at hload
  rw [prepare_eq, Run.exec_bind_ok hopening, Run.exec_bind_ok hload, hs, Run.exec_bind_ok hplanted]

theorem site_ne_fileName : ∀ site ∈ Seed.sites target, site.2 ≠ Settings.fileName := by
  have hnames : Settings.fileName ∉ (Seed.sites ⟨[]⟩).map (·.2) := by decide
  intro site hsite heq
  exact hnames (heq ▸ List.mem_map_of_mem (f := (·.2)) hsite)

theorem exec_prepareTarget_cases (reader : WebAddress.Reader) (root target : Path)
    (framework : Seed.Framework) (s : Settings) (p : Progress) :
    ∃ m, GrowsBeside Settings.fileName p.disk m ∧
      ((∃ f, (Run.exec (prepareTarget reader root target framework s) p).1 = .error f ∧
          (Run.exec (prepareTarget reader root target framework s) p).2.disk = m) ∨
        Seed.IsComplete target (seedOptions framework s) m ∧
          Permitted root (imageHost? reader framework s) m
            (Run.exec (prepareTarget reader root target framework s) p).1
            (Run.exec (prepareTarget reader root target framework s) p).2.disk) := by
  have hleads :
      (Seed.plant target (seedOptions framework s)).Leads (GrowsBeside Settings.fileName) :=
    Seed.leads_plant site_ne_fileName _
  refine ⟨_, hleads p, ?_⟩
  rw [prepareTarget, Run.exec_bind]
  cases hplant : Run.exec (Seed.plant target (seedOptions framework s)) p with
  | mk result q =>
    cases result with
    | error f =>
      rw [Run.exec_within_error hplant]
      exact .inl ⟨_, rfl, rfl⟩
    | ok planted =>
      refine .inr ⟨Seed.isComplete_of_exec hplant, ?_⟩
      obtain ⟨q', hsay, hdisk⟩ : ∃ q', Run.exec (sayPlanted root planted) q = (.ok (), q') ∧
          q'.disk = q.disk := ⟨_, says_sayPlanted root planted q, rfl⟩
      obtain ⟨text, hsteps⟩ := exists_says_sayNextSteps (shown root target)
      have hpermitted := permitted_exec reader root framework s q'
      rw [hdisk] at hpermitted
      rw [Run.exec_within hplant]
      dsimp only
      rw [Run.exec_bind_ok hsay, Run.exec_bind]
      cases hpermit : Run.exec (permitImages reader root framework s) q' with
      | mk result r =>
        rw [hpermit] at hpermitted
        cases result with
        | error f => exact hpermitted
        | ok u =>
          dsimp only
          rw [hsteps r]
          exact hpermitted

/-- Nothing is left to do for the images of a project. -/
def ImagesSettled (reader : WebAddress.Reader) (root : Path) (framework : Seed.Framework)
    (s : Settings) (d : Disk) : Prop :=
  ∀ host ∈ imageHost? reader framework s, RemotePattern.IsSettled root host [] d

theorem Permitted.imagesSettled {m : Disk}
    (h : Permitted root (imageHost? reader framework s) m (.ok ()) d) :
    ImagesSettled reader root framework s d := by
  intro host hhost
  rw [hhost] at h
  cases h with
  | @listed _ _ _ outcome _ hensured hresult =>
    cases outcome with
    | ok outcome => exact hensured.isSettled
    | error f => exact nomatch hresult

theorem exists_exec_permitImages (h : ImagesSettled reader root framework s d) :
    ∃ text, ∀ p : Progress, p.disk = d → Run.exec (permitImages reader root framework s) p =
      (.ok (), { p with printed := p.printed ++ text }) := by
  unfold permitImages
  cases hhost : imageHost? reader framework s with
  | none => exact ⟨[], fun p _ => by simp⟩
  | some host =>
    obtain ⟨outcome, -, hensure⟩ := h host hhost
    obtain ⟨text, hprints⟩ := exists_says_sayOutcome root outcome
    refine ⟨text, fun p hp => ?_⟩
    dsimp only
    rw [permitHost, Run.exec_bind_ok (Run.exec_within (hensure p hp) _), hprints p]

theorem exists_exec_prepareTarget (hcomplete : Seed.IsComplete target (seedOptions framework s) d)
    (himages : ImagesSettled reader root framework s d) : ∃ rest, ∀ p : Progress, p.disk = d →
      Run.exec (prepareTarget reader root target framework s) p = (.ok (), { p with
        printed := p.printed ++ (((Seed.files target (seedOptions framework s)).map
          (·.1)).flatMap fun path => keptLine root path ++ ['\n']) ++ rest }) := by
  obtain ⟨images, hpermit⟩ := exists_exec_permitImages himages
  obtain ⟨steps, hsteps⟩ := exists_says_sayNextSteps (shown root target)
  refine ⟨images ++ steps, fun p hp => ?_⟩
  subst hp
  have hplant := Run.exec_within (Seed.exec_plant_of_isComplete hcomplete) (.seeding target)
  rw [prepareTarget, Run.exec_bind_ok hplant, Run.exec_bind_ok (says_sayPlanted root _ p),
    Run.exec_bind_ok (hpermit _ (by rfl)), hsteps]
  simp

theorem imageHost?_eq_some_iff {host : Text} : imageHost? reader framework s = some host ↔
    framework = .next ∧ WebAddress.remoteHost? reader s.imageBaseOrDefault = some host := by
  rw [imageHost?]
  split <;> simp_all

theorem Permitted.spares {host? : Option Text} {result : Except Failure Unit} {m : Disk}
    (h : Permitted root host? m result d) : Spares Settings.fileName m d := by
  cases h with
  | idle => exact .refl _ d
  | listed hensured => exact hensured.spares (by decide)

theorem Permitted.grows_or_patches {host? : Option Text} {result : Except Failure Unit} {m : Disk}
    (h : Permitted root host? m result d) : Grows m d ∨ ∃ host path place old patched,
      host? = some host ∧ RemotePattern.Patches root host [] path place old patched m d := by
  cases h with
  | idle => exact .inl (.refl d)
  | listed hensured =>
    refine hensured.grows_or_patches.imp id ?_
    rintro ⟨path, place, old, patched, hpatches⟩
    exact ⟨_, path, place, old, patched, rfl, hpatches⟩

theorem isPlanted_of_isComplete {o : Seed.Options} (h : Seed.IsComplete target o d) :
    Seed.isPlanted target d = true := h.files _ List.mem_cons_self

theorem file_of_permitted {host? : Option Text} {result : Except Failure Unit} {m e : Disk}
    (hgrows : Grows d m) (h : Permitted root host? m result e) {place : Place} {content : ByteArray}
    (hfile : d.node? place = some (.file content)) :
    e.node? place = some (.file content) ∨ ∃ host path old patched, host? = some host ∧
      RemotePattern.find? root e = some path ∧ e.locate path = .ok place ∧
      decode? content = some old ∧ mentions host old = false ∧
      RemotePattern.patch? old host [] = some patched ∧
      e.node? place = some (.file (encode patched)) := by
  have hmiddle := hgrows.node place _ hfile
  cases h.grows_or_patches with
  | inl hgrows' => exact .inl (hgrows'.node place _ hmiddle)
  | inr hpatches =>
    obtain ⟨host, path, place', old, patched, hhost, hpatches⟩ := hpatches
    obtain ⟨content', hnode, htext⟩ := hpatches.exists_file
    have hput := node?_put (d := m) (ne_nil_of_file hnode)
    by_cases hplace : place = place'
    · subst hplace
      obtain rfl : content' = content := by
        rw [hmiddle] at hnode
        exact (Node.file.inj (Option.some.inj hnode)).symm
      refine .inr ⟨host, path, old, patched, hhost, hpatches.find?_after, ?_, htext, hpatches.new,
        hpatches.patch, ?_⟩
      · rw [hpatches.written, locate_put_file hnode, hpatches.locate]
      · rw [hpatches.written, hput, if_pos rfl]
    · refine .inl ?_
      rw [hpatches.written, hput, if_neg hplace, hmiddle]

theorem outcome_prepare_cases (hs : (Settings.onDisk root d).1 = s) {dir : Option Path}
    {framework : Seed.Framework} {result : Except Failure Unit} {e : Disk}
    (h : (prepare reader root dir framework).outcome d = (result, e)) :
    ∃ m, GrowsBeside Settings.fileName d m ∧ (e = m ∧ (∃ f, result = .error f) ∨
      Seed.IsComplete (s.target root dir) (seedOptions framework s) m ∧
        Permitted root (imageHost? reader framework s) m result e) := by
  obtain ⟨notices, printed, hexec, -⟩ := exists_exec_prepare hs dir framework
  obtain ⟨m, hgrows, hend⟩ :=
    exec_prepareTarget_cases reader root (s.target root dir) framework s ⟨d, notices, printed⟩
  rw [Run.outcome, hexec] at h
  obtain ⟨hresult, he⟩ := Prod.mk.inj h
  rw [hresult, he] at hend
  refine ⟨m, hgrows, hend.imp ?_ id⟩
  rintro ⟨f, hf, hm⟩
  exact ⟨hm, f, hf⟩

/-- A project that was prepared: planting is complete, and nothing is left to do for the images. -/
theorem isComplete_of_outcome_prepare (hs : (Settings.onDisk root d).1 = s) {dir : Option Path}
    {framework : Seed.Framework} {e : Disk}
    (h : (prepare reader root dir framework).outcome d = (.ok (), e)) :
    Seed.IsComplete (s.target root dir) (seedOptions framework s) e ∧
      ImagesSettled reader root framework s e ∧ Spares Settings.fileName d e := by
  obtain ⟨m, hgrows, hend⟩ := outcome_prepare_cases hs h
  cases hend with
  | inl hfailed =>
    obtain ⟨-, f, hf⟩ := hfailed
    exact nomatch hf
  | inr hplanted =>
    obtain ⟨hcomplete, hpermitted⟩ := hplanted
    exact ⟨hcomplete.of_keeps hpermitted.spares.keeps, hpermitted.imagesSettled,
      hgrows.spares.trans hpermitted.spares⟩

theorem exists_exec_prepare_again (hs : (Settings.onDisk root d).1 = s)
    (hcomplete : Seed.IsComplete (s.target root dir) (seedOptions framework s) d)
    (himages : ImagesSettled reader root framework s d) :
    ∃ notices rest, Run.exec (prepare reader root dir framework) (.start d) = (.ok (), ⟨d, notices,
      openingLine ++ ['\n'] ++ (plantedLine root (s.target root dir) ++ ['\n']) ++
        (((Seed.files (s.target root dir) (seedOptions framework s)).map (·.1)).flatMap
          fun path => keptLine root path ++ ['\n']) ++ rest⟩) := by
  obtain ⟨notices, printed, hexec, hprinted⟩ := exists_exec_prepare hs dir framework
  obtain ⟨rest, hrest⟩ := exists_exec_prepareTarget hcomplete himages
  refine ⟨notices, rest, ?_⟩
  rw [hexec, hrest ⟨d, notices, printed⟩ rfl, hprinted (isPlanted_of_isComplete hcomplete)]

/-- Whatever the reader tells of the image base, the command overwrites no file but the
configuration that it patches, whether it succeeds or not. Once it has succeeded in the root of a
project, which may be missing, running it again succeeds too and changes nothing: planting creates
nothing and keeps the seven files, each of which is told to be kept, and the configuration is left
as it is. -/
theorem prepare_keeps_files (reader : WebAddress.Reader) (root : Path) (dir : Option Path)
    (framework : Seed.Framework) (d : Disk) :
    let s := (Settings.onDisk root d).1
    let target := s.target root dir
    let o : Seed.Options := ⟨framework, s.imageBaseOrDefault, s.darkClassOrDefault⟩
    let paths := (Seed.files target o).map (·.1)
    (∀ result e, (prepare reader root dir framework).outcome d = (result, e) →
      ∀ place content, d.node? place = some (.file content) →
      e.node? place = some (.file content) ∨ ∃ host path old patched, framework = .next ∧
        WebAddress.remoteHost? reader s.imageBaseOrDefault = some host ∧
        RemotePattern.find? root e = some path ∧ e.locate path = .ok place ∧
        decode? content = some old ∧ mentions host old = false ∧
        RemotePattern.patch? old host [] = some patched ∧
        e.node? place = some (.file (encode patched))) ∧
    ∀ e, d.HasRoot root → (prepare reader root dir framework).outcome d = (.ok (), e) →
      (prepare reader root dir framework).outcome e = (.ok (), e) ∧
      (Seed.plant target o).outcome e = (.ok ⟨[], paths⟩, e) ∧ paths.length = 7 ∧
      (∀ host, framework = .next →
        WebAddress.remoteHost? reader s.imageBaseOrDefault = some host →
        ∃ outcome : RemotePattern.Outcome, outcome.IsIdle ∧
          (RemotePattern.ensure root host []).outcome e = (.ok outcome, e)) ∧
      ∃ rest, (Run.exec (prepare reader root dir framework) (.start e)).2.printed =
        openingLine ++ ['\n'] ++ (plantedLine root target ++ ['\n']) ++
          (paths.flatMap fun path => keptLine root path ++ ['\n']) ++ rest := by
  intro s target o paths
  constructor
  · intro result e he place content hfile
    obtain ⟨m, hgrows, hend⟩ := outcome_prepare_cases (s := s) rfl he
    cases hend with
    | inl hfailed =>
      obtain ⟨rfl, -⟩ := hfailed
      exact .inl (hgrows.grows.node place _ hfile)
    | inr hplanted =>
      obtain ⟨-, hpermitted⟩ := hplanted
      refine (file_of_permitted hgrows.grows hpermitted hfile).imp id ?_
      rintro ⟨host, path, old, patched, hhost, hpatched⟩
      obtain ⟨hnext, hremote⟩ := imageHost?_eq_some_iff.1 hhost
      exact ⟨host, path, old, patched, hnext, hremote, hpatched⟩
  · intro e hroot hok
    obtain ⟨hcomplete, himages, hspares⟩ := isComplete_of_outcome_prepare (s := s) rfl hok
    have hs : (Settings.onDisk root e).1 = s :=
      Settings.onDisk_congr fun t => hspares.readText_eq_ok_iff Settings.isFileName_fileName hroot
    obtain ⟨notices, rest, hagain⟩ := exists_exec_prepare_again hs hcomplete himages
    have hplant : Run.exec (Seed.plant target o) (.start e) = (.ok ⟨[], paths⟩, .start e) :=
      Seed.exec_plant_of_isComplete hcomplete
    refine ⟨?_, ?_, rfl, fun host hnext hremote => ?_, rest, ?_⟩
    · rw [Run.outcome, hagain]
    · rw [Run.outcome, hplant]
      rfl
    · obtain ⟨outcome, hidle, hensure⟩ := himages host (imageHost?_eq_some_iff.2 ⟨hnext, hremote⟩)
      refine ⟨outcome, hidle, ?_⟩
      rw [Run.outcome, hensure (.start e) rfl]
      rfl
    · rw [hagain]
      rfl

def remoteImages : Disk where
  nodes := [(["p".toList], .folder),
    (["p".toList, "next.config.ts".toList], .file (encode "export default \x7b\x7d".toList)),
    (["p".toList, ".crypto-icons.json".toList],
      .file (encode "\x7b\x22imageBasePath\x22:\x22http://a.b\x22\x7d".toList))]
  home := []

/-- What a reader of web addresses tells of the one address in these settings. -/
def readsRemoteImages : WebAddress.Reader := fun t =>
  if t = "http://a.b".toList then some ⟨"http".toList, some "a.b".toList⟩ else none

theorem prepare_keeps_files_remoteImages :
    let root : Path := ⟨"p".toList⟩
    let run := prepare readsRemoteImages root (some ⟨"x".toList⟩) .next
    remoteImages.HasRoot root ∧ ∃ e, run.outcome remoteImages = (.ok (), e) ∧
      run.outcome e = (.ok (), e) ∧
      (∀ place content, remoteImages.node? place = some (.file content) →
        e.node? place = some (.file content) ∨ ∃ old patched,
          decode? content = some old ∧ RemotePattern.patch? old "a.b".toList [] = some patched ∧
          e.node? place = some (.file (encode patched))) := by
  intro root run
  have hroot : remoteImages.HasRoot root := .inl rfl
  have hok : (run.outcome remoteImages).1 = .ok () := by decide +kernel
  have hhost : WebAddress.remoteHost? readsRemoteImages
      (Settings.onDisk root remoteImages).1.imageBaseOrDefault = some "a.b".toList := by
    decide +kernel
  obtain ⟨e, houtcome⟩ := Run.exists_outcome hok
  have h := prepare_keeps_files readsRemoteImages root (some ⟨"x".toList⟩) .next remoteImages
  refine ⟨hroot, e, houtcome, (h.2 e hroot houtcome).1, fun place content hfile => ?_⟩
  refine (h.1 _ _ houtcome place content hfile).imp id ?_
  rintro ⟨host, path, old, patched, -, hremote, -, -, hold, -, hpatch, hpatched⟩
  obtain rfl := Option.some.inj (hhost.symm.trans hremote)
  exact ⟨old, patched, hold, hpatch, hpatched⟩

end Command
end IconCatalog
