import IconCatalog.Run
/-!
How runs are carried out. A run gives a result and a disk, and both depend on nothing but the disk
it starts with: what was noted and printed before it has no say. So runs in a row are told by the
disks between them, and what a run may do to a disk is a relation that its steps compose.
-/
namespace IconCatalog
open Text

namespace Run
variable {α β : Type}

def exec (r : Run α) (p : Progress) : Except Failure α × Progress := (r.run p).run

@[simp] theorem exec_pure (a : α) (p : Progress) : exec (pure a) p = (.ok a, p) := rfl

theorem exec_bind (r : Run α) (f : α → Run β) (p : Progress) : exec (r >>= f) p =
    match exec r p with
    | (.ok a, q) => exec (f a) q
    | (.error e, q) => (.error e, q) := by
  have hbind : exec (r >>= f) p = (ExceptT.bindCont f (exec r p).1 (exec r p).2).run := rfl
  rw [hbind]
  cases h : exec r p with
  | mk result q => cases result <;> rfl

theorem exec_bind_ok {r : Run α} {f : α → Run β} {p q : Progress} {a : α}
    (h : exec r p = (.ok a, q)) : exec (r >>= f) p = exec (f a) q := by
  rw [exec_bind, h]

@[simp] theorem exec_fail (cause : Cause) (p : Progress) :
    exec (fail cause : Run α) p = (.error ⟨[], cause⟩, p) := rfl

@[simp] theorem exec_note (n : Notice) (p : Progress) :
    exec (note n) p = (.ok (), { p with notices := p.notices ++ [n] }) := rfl

@[simp] theorem exec_disk (p : Progress) : exec disk p = (.ok p.disk, p) := rfl

@[simp] theorem exec_say (line : Text) (p : Progress) :
    exec (say line) p = (.ok (), { p with printed := p.printed ++ line ++ ['\n'] }) := rfl

theorem exec_change_eq (operation : Disk → Except DiskFault Disk) (p : Progress) :
    exec (change operation) p =
      match operation p.disk with
      | .ok d => (.ok (), { p with disk := d })
      | .error fault => (.error ⟨[], .disk fault⟩, p) := by
  rw [change, exec_bind_ok (exec_disk p)]
  cases operation p.disk <;> rfl

theorem exec_change {operation : Disk → Except DiskFault Disk} {p : Progress} {d : Disk}
    (h : operation p.disk = .ok d) :
    exec (change operation) p = (.ok (), { p with disk := d }) := by
  rw [exec_change_eq, h]

theorem exec_look (operation : Disk → Except DiskFault α) (p : Progress) :
    exec (look operation) p = match operation p.disk with
      | .ok a => (.ok a, p)
      | .error fault => (.error ⟨[], .disk fault⟩, p) := by
  rw [look, exec_bind_ok (exec_disk p)]
  cases operation p.disk <;> rfl

theorem exec_readGenerated {path : Path} {p : Progress} {t : Text}
    (h : p.disk.readText path = .ok t) : exec (readGenerated path) p = (.ok t, p) := by
  rw [readGenerated, exec_bind_ok (exec_disk p)]
  simp only [h]
  rfl

theorem exec_readGenerated_cases (path : Path) (p : Progress) :
    (∃ f, exec (readGenerated path) p = (.error f, p)) ∨ ∃ t, p.disk.readText path = .ok t := by
  rw [readGenerated, exec_bind_ok (exec_disk p)]
  cases p.disk.readText path with
  | ok t => exact .inr ⟨t, rfl⟩
  | error fault => cases fault <;> exact .inl ⟨_, rfl⟩

theorem exec_tryCatch (r : Run α) (f : Failure → Run α) (p : Progress) :
    exec (tryCatch r f) p = match exec r p with
      | (.ok a, q) => (.ok a, q)
      | (.error e, q) => exec (f e) q := by
  have hr : StateT.run (ExceptT.run r) p = exec r p := rfl
  have hrun : exec (tryCatch r f) p = StateT.run (ExceptT.run (tryCatch r f)) p := rfl
  rw [hrun, ExceptT.run_tryCatch, StateT.run_bind, hr]
  cases exec r p with
  | mk result q => cases result <;> rfl

theorem exec_within {r : Run α} {p q : Progress} {a : α} (h : exec r p = (.ok a, q))
    (context : Context) : exec (within context r) p = (.ok a, q) := by
  rw [within, exec_tryCatch, h]

theorem exec_within_error {r : Run α} {p q : Progress} {f : Failure}
    (h : exec r p = (.error f, q)) (context : Context) :
    exec (within context r) p = (.error { f with contexts := context :: f.contexts }, q) := by
  rw [within, exec_tryCatch, h]
  rfl

/-- What a run returns and the disk it leaves, when it starts on a given disk. -/
def outcome (r : Run α) (d : Disk) : Except Failure α × Disk :=
  ((exec r (.start d)).1, (exec r (.start d)).2.disk)

theorem exists_outcome {r : Run α} {d : Disk} {result : Except Failure α}
    (h : (r.outcome d).1 = result) : ∃ e, r.outcome d = (result, e) := ⟨_, Prod.ext h rfl⟩

theorem outcome_within {r : Run α} {d e : Disk} {a : α} (h : r.outcome d = (.ok a, e))
    (context : Context) : (within context r).outcome d = (.ok a, e) := by
  obtain ⟨hresult, hdisk⟩ := Prod.mk.inj h
  rw [outcome, exec_within (q := (exec r (.start d)).2) (Prod.ext hresult rfl) context, hdisk]

theorem outcome_within_error {r : Run α} {d e : Disk} {f : Failure}
    (h : r.outcome d = (.error f, e)) (context : Context) :
    (within context r).outcome d = (.error { f with contexts := context :: f.contexts }, e) := by
  obtain ⟨hresult, hdisk⟩ := Prod.mk.inj h
  rw [outcome, exec_within_error (q := (exec r (.start d)).2) (Prod.ext hresult rfl) context, hdisk]

theorem outcome_of_within {r : Run α} {d e : Disk} {a : α} {context : Context}
    (h : (within context r).outcome d = (.ok a, e)) : r.outcome d = (.ok a, e) := by
  cases hr : r.outcome d with
  | mk result e' =>
    cases result with
    | ok b => exact (outcome_within hr context).symm.trans h
    | error f => exact nomatch (outcome_within_error hr context).symm.trans h

/-- What a run returns and what it makes of the disk depend on the disk alone. -/
def DependsOnDisk (r : Run α) : Prop := ∀ p q : Progress, p.disk = q.disk →
  (exec r p).1 = (exec r q).1 ∧ (exec r p).2.disk = (exec r q).2.disk

namespace DependsOnDisk
variable {r : Run α} {f : α → Run β}

theorem outcome (h : r.DependsOnDisk) (p : Progress) :
    r.outcome p.disk = ((exec r p).1, (exec r p).2.disk) := by
  obtain ⟨hresult, hdisk⟩ := h (.start p.disk) p rfl
  exact Prod.ext hresult hdisk

theorem pure (a : α) : DependsOnDisk (pure a) := fun _ _ h => ⟨rfl, h⟩

theorem fail (cause : Cause) : DependsOnDisk (fail cause : Run α) := fun _ _ h => ⟨rfl, h⟩

theorem note (n : Notice) : DependsOnDisk (note n) := fun _ _ h => ⟨rfl, h⟩

theorem say (line : Text) : DependsOnDisk (say line) := fun _ _ h => ⟨rfl, h⟩

theorem disk : DependsOnDisk disk := fun p q h => ⟨by simp [h], h⟩

theorem bind (hr : r.DependsOnDisk) (hf : ∀ a, (f a).DependsOnDisk) : (r >>= f).DependsOnDisk := by
  intro p q h
  obtain ⟨hresult, hdisk⟩ := hr p q h
  rw [exec_bind, exec_bind]
  cases hp : exec r p with
  | mk x p' =>
    cases hq : exec r q with
    | mk y q' =>
      rw [hp, hq] at hresult hdisk
      obtain rfl : x = y := hresult
      cases x with
      | ok a => exact hf a p' q' hdisk
      | error e => exact ⟨rfl, hdisk⟩

theorem within (hr : r.DependsOnDisk) (context : Context) :
    (Run.within context r).DependsOnDisk := by
  intro p q h
  obtain ⟨hresult, hdisk⟩ := hr p q h
  rw [Run.within, exec_tryCatch, exec_tryCatch]
  cases hp : exec r p with
  | mk x p' =>
    cases hq : exec r q with
    | mk y q' =>
      rw [hp, hq] at hresult hdisk
      obtain rfl : x = y := hresult
      cases x with
      | ok a => exact ⟨rfl, hdisk⟩
      | error e => exact ⟨rfl, hdisk⟩

theorem change (operation : Disk → Except DiskFault Disk) :
    DependsOnDisk (change operation) := by
  refine disk.bind fun d => ?_
  cases operation d with
  | ok e => exact fun _ _ _ => ⟨rfl, rfl⟩
  | error fault => exact fail _

theorem readGenerated (path : Path) : DependsOnDisk (readGenerated path) := by
  refine disk.bind fun d => ?_
  cases d.readText path with
  | ok t => exact pure t
  | error fault => cases fault <;> exact fail _

end DependsOnDisk

theorem outcome_bind {r : Run α} {f : α → Run β} (hf : ∀ a, (f a).DependsOnDisk) (d : Disk) :
    (r >>= f).outcome d =
      match r.outcome d with
      | (.ok a, e) => (f a).outcome e
      | (.error failure, e) => (.error failure, e) := by
  rw [outcome, outcome, exec_bind]
  cases h : exec r (.start d) with
  | mk x p =>
    cases x with
    | ok a => exact ((hf a).outcome p).symm
    | error failure => rfl

/-- Runs that succeed one after another, each on the disk that the one before it leaves. -/
inductive InTurn : Disk → List (Run α) → Disk → Prop where
  | nil : InTurn d [] d
  | cons : r.outcome d = (.ok a, e) → InTurn e rs f → InTurn d (r :: rs) f

theorem InTurn.append {d e f : Disk} {rs ss : List (Run α)} (h : InTurn d rs e)
    (h' : InTurn e ss f) : InTurn d (rs ++ ss) f := by
  induction h with
  | nil => exact h'
  | cons hr _ ih => exact .cons hr (ih h')

theorem exec_bind_eq_ok {r : Run α} {f : α → Run β} {p q : Progress} {b : β}
    (h : exec (r >>= f) p = (.ok b, q)) :
    ∃ a m, exec r p = (.ok a, m) ∧ exec (f a) m = (.ok b, q) := by
  rw [exec_bind] at h
  cases hr : exec r p with
  | mk result m =>
    rw [hr] at h
    cases result with
    | ok a => exact ⟨a, m, rfl, h⟩
    | error e => exact nomatch h

/-- However a run ends, the disk it leaves stands in a relation to the one it started with. -/
def Leads (R : Disk → Disk → Prop) (r : Run α) : Prop := ∀ p, R p.disk (exec r p).2.disk

namespace Leads
variable {R S T : Disk → Disk → Prop} {r : Run α} {f : α → Run β}

theorem of_idle (hR : ∀ d, R d d) (h : ∀ p, (exec r p).2.disk = p.disk) : r.Leads R := by
  intro p
  rw [h]
  exact hR p.disk

theorem bind (hr : r.Leads R) (hf : ∀ a, (f a).Leads S) (hfail : ∀ d e, R d e → T d e)
    (hcomp : ∀ d m e, R d m → S m e → T d e) : (r >>= f).Leads T := by
  intro p
  have hfirst := hr p
  rw [exec_bind]
  cases h : exec r p with
  | mk result q =>
    rw [h] at hfirst
    cases result with
    | ok a => exact hcomp _ _ _ hfirst (hf a q)
    | error e => exact hfail _ _ hfirst

theorem bind_self (htrans : ∀ d m e, R d m → R m e → R d e) (hr : r.Leads R)
    (hf : ∀ a, (f a).Leads R) : (r >>= f).Leads R :=
  hr.bind hf (fun _ _ h => h) htrans

theorem foldlM {f : β → α → Run β} (hrefl : ∀ d, R d d)
    (htrans : ∀ d m e, R d m → R m e → R d e) {xs : List α} (hf : ∀ b, ∀ x ∈ xs, (f b x).Leads R)
    (b : β) : (xs.foldlM f b).Leads R := by
  induction xs generalizing b with
  | nil => exact of_idle hrefl fun _ => rfl
  | cons x xs ih =>
    rw [List.foldlM_cons]
    exact (hf b x List.mem_cons_self).bind_self htrans
      (ih fun b y hy => hf b y (List.mem_cons_of_mem x hy))

end Leads

theorem forIn_eq_foldlM (xs : List α) (f : α → Run Unit) :
    (forIn xs PUnit.unit fun x _ => do f x; pure (ForInStep.yield PUnit.unit)) =
      xs.foldlM (fun _ x => f x) PUnit.unit := by simp

/-- What each step of a loop brings about still holds at its end, if no later step undoes it. -/
theorem forall_of_exec_foldlM {R : Disk → Disk → Prop} {P : α → Disk → Prop} {f : β → α → Run β}
    (hrefl : ∀ d, R d d) (htrans : ∀ d m e, R d m → R m e → R d e) {xs : List α}
    (hf : ∀ b, ∀ x ∈ xs, (f b x).Leads R) (hkeep : ∀ {x d e}, R d e → P x d → P x e)
    (hdone : ∀ {b x b' p q}, exec (f b x) p = (.ok b', q) → P x q.disk) {b b' : β}
    {p q : Progress} (h : exec (xs.foldlM f b) p = (.ok b', q)) : ∀ x ∈ xs, P x q.disk := by
  induction xs generalizing b p with
  | nil => exact fun _ hx => nomatch hx
  | cons x xs ih =>
    rw [List.foldlM_cons] at h
    obtain ⟨c, m, hfirst, hrest⟩ := exec_bind_eq_ok h
    have hxs : ∀ b, ∀ y ∈ xs, (f b y).Leads R := fun b y hy => hf b y (List.mem_cons_of_mem x hy)
    have hlater := Leads.foldlM hrefl htrans hxs c m
    rw [hrest] at hlater
    intro y hy
    cases List.mem_cons.1 hy with
    | inl heq =>
      subst heq
      exact hkeep hlater (hdone hfirst)
    | inr hmem => exact ih hxs hrest y hmem

theorem exec_foldlM_idle {f : β → α → Run β} {g : β → α → β} {xs : List α} {p : Progress}
    (h : ∀ b, ∀ x ∈ xs, exec (f b x) p = (.ok (g b x), p)) (b : β) :
    exec (xs.foldlM f b) p = (.ok (xs.foldl g b), p) := by
  induction xs generalizing b with
  | nil => rfl
  | cons x xs ih =>
    rw [List.foldlM_cons, exec_bind_ok (h b x List.mem_cons_self)]
    exact ih (fun b y hy => h b y (List.mem_cons_of_mem x hy)) (g b x)

def Says (r : Run Unit) (text : Text) : Prop :=
  ∀ p, exec r p = (.ok (), { p with printed := p.printed ++ text })

namespace Says
variable {r r' : Run Unit} {text text' : Text}

theorem nothing : Says (pure ()) [] := fun p => by simp

theorem line (line : Text) : Says (say line) (line ++ ['\n']) := fun p => by simp

theorem followed_by (h : r.Says text) (h' : r'.Says text') : Says (do r; r') (text ++ text') := by
  intro p
  rw [exec_bind_ok (h p), h']
  simp

theorem foldlM (line : α → Text) (xs : List α) :
    Says (xs.foldlM (fun _ x => say (line x)) PUnit.unit)
      (xs.flatMap fun x => line x ++ ['\n']) := by
  induction xs with
  | nil => exact nothing
  | cons x xs ih =>
    rw [List.foldlM_cons, List.flatMap_cons]
    exact (Says.line (line x)).followed_by ih

end Says

end Run
end IconCatalog
